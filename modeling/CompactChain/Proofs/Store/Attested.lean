import CompactChain.Proofs.Bytes
import CompactChain.Proofs.Store.Preservation
import Mathlib.Data.List.Basic

set_option autoImplicit false

namespace CompactChain.Store

def slice (contents : Bytes) (offset length : Nat) : Bytes :=
  (contents.drop offset).take length

def bodyLengthAt (index : Bytes) (place : Nat) : Nat :=
  LittleEndian.toNat (slice index (41 * place + 5) 4)

def recordStart (index : Bytes) : (place : Nat) → Nat
  | 0 => 0
  | place + 1 => recordStart index place + (32 + bodyLengthAt index place)

def bodyAt (files : Files) (place : Nat) : Bytes :=
  slice files.blocks (recordStart files.index place + 32) (bodyLengthAt files.index place)

/-- The entry at this place, its record and the block below all say that this is the block here. -/
structure Attests (first : Nat) (files : Files) (place : Nat) (previous : Option CompactBlock)
    (block : CompactBlock) : Prop where
  whole : 41 * (place + 1) ≤ files.index.length
  tag : files.index[41 * place]? = some 1
  height : LittleEndian.toNat (slice files.index (41 * place + 1) 4) = first + place
  inside : recordStart files.index (place + 1) ≤ files.blocks.length
  checksum : slice files.blocks (recordStart files.index place) 32 =
    Blake2b.digest (LittleEndian.ofNat 8 (first + place) ++ bodyAt files place)
  decoded : CompactBlock.decode (bodyAt files place) = .ok block
  own : block.height.toNat = first + place
  hash : block.hash = slice files.index (41 * place + 9) 32
  linked : ∀ below ∈ previous, block.prevHash = below.hash

def Attested (first : Nat) (files : Files) (place : Nat) (previous : Option CompactBlock) :
    List CompactBlock → Prop
  | [] => True
  | block :: later =>
    Attests first files place previous block ∧ Attested first files (place + 1) (some block) later

theorem length_slice {contents : Bytes} {offset length : Nat}
    (inside : offset + length ≤ contents.length) : (slice contents offset length).length = length := by
  rw [slice, List.length_take, List.length_drop]
  omega

theorem slice_slice {contents : Bytes} {offset length from? count : Nat} (inside : from? + count ≤ length) :
    slice (slice contents offset length) from? count = slice contents (offset + from?) count := by
  rw [slice, slice, slice, List.drop_take, List.take_take, List.drop_drop]
  congr 1
  omega

theorem slice_take {contents : Bytes} {offset length count : Nat} (inside : offset + length ≤ count) :
    slice (contents.take count) offset length = slice contents offset length := by
  rw [slice, slice, List.drop_take, List.take_take]
  congr 1
  omega

theorem recordStart_mono (index : Bytes) {place other : Nat} (le : place ≤ other) :
    recordStart index place ≤ recordStart index other := by
  induction le with
  | refl => exact Nat.le_refl _
  | step _ ih => exact Nat.le_trans ih (Nat.le_add_right _ _)

theorem bodyLengthAt_take {index : Bytes} {place count : Nat} (within : place < count) :
    bodyLengthAt (index.take (41 * count)) place = bodyLengthAt index place := by
  rw [bodyLengthAt, slice_take (by omega)]
  rfl

theorem recordStart_take {index : Bytes} {place count : Nat} (within : place ≤ count) :
    recordStart (index.take (41 * count)) place = recordStart index place := by
  induction place with
  | zero => rfl
  | succ place ih =>
    rw [recordStart, recordStart, ih (Nat.le_of_succ_le within), bodyLengthAt_take within]

section Verify

variable {first place height length : Nat} {files : Files} {previous : Option CompactBlock}
  {block : CompactBlock}

theorem read?_slice {index : Bytes} (whole : 41 * (place + 1) ≤ index.length) :
    IndexEntry.read? (slice index (41 * place) 41) =
      if index[41 * place]? = some 1 then
        some ⟨UInt32.ofNat (LittleEndian.toNat (slice index (41 * place + 1) 4)),
          UInt32.ofNat (bodyLengthAt index place), slice index (41 * place + 9) 32⟩
      else none := by
  have inside : 41 * place < index.length := by omega
  have split : slice index (41 * place) 41 =
      index[41 * place] :: slice index (41 * place + 1) 40 := by
    rw [slice, List.drop_eq_getElem_cons inside]
    rfl
  have height : (slice index (41 * place + 1) 40).take 4 = slice index (41 * place + 1) 4 := by
    rw [slice, slice, List.take_take]
    rfl
  have bodyLength : ((slice index (41 * place + 1) 40).drop 4).take 4 =
      slice index (41 * place + 5) 4 := slice_slice (by decide)
  have hash : ((slice index (41 * place + 1) 40).drop 8).take 32 =
      slice index (41 * place + 9) 32 := slice_slice (by decide)
  rw [split, List.getElem?_eq_getElem inside, IndexEntry.read?, height, bodyLength, hash]
  simp only [IndexEntry.tag, Option.some.injEq]
  rfl

theorem toNat_word {contents : Bytes} {offset : Nat} (inside : offset + 4 ≤ contents.length) :
    (UInt32.ofNat (LittleEndian.toNat (slice contents offset 4))).toNat =
      LittleEndian.toNat (slice contents offset 4) := by
  have fits := LittleEndian.toNat_lt (slice contents offset 4)
  rw [length_slice inside] at fits
  exact UInt32.toNat_ofNat_of_lt' fits

theorem verify_slice_iff (whole : 41 * (place + 1) ≤ files.index.length) :
    verify (first + place) (slice files.index (41 * place) 41)
        (files.blocks.drop (recordStart files.index place)) previous = .ok (block, length) ↔
      Attests first files place previous block ∧ length = 32 + bodyLengthAt files.index place := by
  have heightKept : (UInt32.ofNat (LittleEndian.toNat (slice files.index (41 * place + 1) 4))).toNat =
      LittleEndian.toNat (slice files.index (41 * place + 1) 4) := toNat_word (by omega)
  have lengthKept : (UInt32.ofNat (bodyLengthAt files.index place)).toNat =
      bodyLengthAt files.index place := toNat_word (by omega)
  have inside : checksumLength + bodyLengthAt files.index place ≤
        (files.blocks.drop (recordStart files.index place)).length ↔
      recordStart files.index (place + 1) ≤ files.blocks.length := by
    simp only [List.length_drop, recordStart, checksumLength]
    omega
  have body : ((files.blocks.drop (recordStart files.index place)).take
      (checksumLength + bodyLengthAt files.index place)).drop checksumLength = bodyAt files place := by
    rw [List.drop_take, List.drop_drop, Nat.add_sub_cancel_left]
    rfl
  have digest : ((files.blocks.drop (recordStart files.index place)).take
      (checksumLength + bodyLengthAt files.index place)).take checksumLength =
        slice files.blocks (recordStart files.index place) 32 := by
    rw [List.take_take, Nat.min_eq_left (Nat.le_add_right _ _)]
    rfl
  have read := read?_slice whole
  by_cases tag : files.index[41 * place]? = some 1
  next =>
    rw [if_pos tag] at read
    rw [verify_eq_ok_iff read, heightKept, lengthKept]
    constructor
    next =>
      rintro ⟨height, rfl, stored, digested, decoded, own, hash, linked⟩
      rw [body] at digested decoded
      rw [digest] at digested
      exact ⟨⟨whole, tag, height, inside.mp stored, digested.symm, decoded, own, hash, linked⟩, rfl⟩
    next =>
      rintro ⟨attests, rfl⟩
      have digested := attests.checksum.symm
      rw [← body, ← digest] at digested
      have decoded := attests.decoded
      rw [← body] at decoded
      exact ⟨attests.height, rfl, inside.mpr attests.inside, digested, decoded, attests.own, attests.hash,
        attests.linked⟩
  next =>
    rw [if_neg tag] at read
    simp only [verify, read]
    exact iff_of_false (by simp) fun both => tag both.1.tag

end Verify

section Attested

variable {first place : Nat} {files : Files} {previous : Option CompactBlock}
  {block : CompactBlock} {blocks : List CompactBlock}

theorem Attests.unique {other : CompactBlock} (attests : Attests first files place previous block)
    (also : Attests first files place previous other) : block = other :=
  Except.ok.inj (attests.decoded.symm.trans also.decoded)

theorem Attested.occupies (attested : Attested first files place previous blocks)
    (entries : 41 * place ≤ files.index.length)
    (records : recordStart files.index place ≤ files.blocks.length) :
    41 * (place + blocks.length) ≤ files.index.length ∧
      recordStart files.index (place + blocks.length) ≤ files.blocks.length := by
  induction blocks generalizing place previous with
  | nil => exact ⟨entries, records⟩
  | cons block later ih =>
    have above : place + (block :: later).length = place + 1 + later.length := by
      rw [List.length_cons]
      omega
    rw [above]
    exact ih attested.2 attested.1.whole attested.1.inside

def cutAt (files : Files) (count : Nat) : Files :=
  ⟨files.blocks.take (recordStart files.index count), files.index.take (41 * count)⟩

theorem cutAt_cutAt (files : Files) (count : Nat) : cutAt (cutAt files count) count = cutAt files count := by
  simp only [cutAt, recordStart_take (Nat.le_refl count), List.take_take, Nat.min_self]

theorem bodyAt_cutAt {count : Nat} (within : place < count) :
    bodyAt (cutAt files count) place = bodyAt files place := by
  have fits : recordStart files.index place + 32 + bodyLengthAt files.index place ≤
      recordStart files.index count := by
    rw [Nat.add_assoc]
    exact recordStart_mono files.index (Nat.succ_le_of_lt within)
  simp only [bodyAt, cutAt, recordStart_take (Nat.le_of_lt within), bodyLengthAt_take within]
  exact slice_take fits

theorem Attests.cutAt (attests : Attests first files place previous block) {count : Nat}
    (within : place < count) : Attests first (cutAt files count) place previous block := by
  have above := recordStart_mono files.index (Nat.succ_le_of_lt within)
  have digest : recordStart files.index place + 32 ≤ recordStart files.index count := by
    rw [recordStart] at above
    omega
  have start : recordStart (files.index.take (41 * count)) place = recordStart files.index place :=
    recordStart_take (Nat.le_of_lt within)
  have stop : recordStart (files.index.take (41 * count)) (place + 1) =
      recordStart files.index (place + 1) := recordStart_take within
  refine ⟨?whole, ?tag, ?height, ?inside, ?checksum, ?decoded, attests.own, ?hash, attests.linked⟩
  case whole =>
    have := attests.whole
    simp only [Store.cutAt, List.length_take]
    omega
  case tag =>
    simp only [Store.cutAt]
    rw [List.getElem?_take_of_lt (by omega), attests.tag]
  case height =>
    simp only [Store.cutAt]
    rw [slice_take (by omega), attests.height]
  case inside =>
    simp only [Store.cutAt, List.length_take]
    rw [stop]
    exact Nat.le_min.mpr ⟨above, attests.inside⟩
  case checksum =>
    rw [bodyAt_cutAt within, ← attests.checksum]
    simp only [Store.cutAt]
    rw [start, slice_take digest]
  case decoded => rw [bodyAt_cutAt within, attests.decoded]
  case hash =>
    simp only [Store.cutAt]
    rw [slice_take (by omega), attests.hash]

theorem Attested.cutAt (attested : Attested first files place previous blocks) {count : Nat}
    (within : place + blocks.length ≤ count) :
    Attested first (cutAt files count) place previous blocks := by
  induction blocks generalizing place previous with
  | nil => trivial
  | cons block later ih =>
    rw [List.length_cons] at within
    exact ⟨attested.1.cutAt (by omega), ih attested.2 (by omega)⟩

end Attested

end CompactChain.Store
