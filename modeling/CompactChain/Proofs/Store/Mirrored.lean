import CompactChain.Proofs.Store.Longest
import CompactChain.Proofs.Store.Reading

set_option autoImplicit false

namespace CompactChain.Store

theorem recordStart_congr {index other : Bytes} {place : Nat}
    (same : other.take (41 * place) = index.take (41 * place)) :
    recordStart other place = recordStart index place := by
  rw [← recordStart_take (Nat.le_refl place), same, recordStart_take (Nat.le_refl place)]

theorem cutAt_congr {files other : Files} {count : Nat}
    (index : other.index.take (41 * count) = files.index.take (41 * count))
    (blocks : other.blocks.take (recordStart files.index count) =
      files.blocks.take (recordStart files.index count)) : cutAt other count = cutAt files count := by
  rw [cutAt, cutAt, recordStart_congr index, index, blocks]

section Front

variable {first place count : Nat} {files other : Files} {previous : Option CompactBlock}
  {block : CompactBlock} {blocks : List CompactBlock}

theorem attested_append {front back : List CompactBlock} :
    Attested first files place previous (front ++ back) ↔
      Attested first files place previous front ∧
        Attested first files (place + front.length) (front.getLast?.or previous) back := by
  induction front generalizing place previous with
  | nil => simp [Attested]
  | cons block front ih =>
    have above : place + 1 + front.length = place + (block :: front).length := by
      rw [List.length_cons]
      omega
    rw [List.cons_append, Attested, Attested, ih, getLast?_cons_or, above, and_assoc]

theorem Attests.of_cutAt (attests : Attests first (Store.cutAt files count) place previous block) :
    Attests first files place previous block := by
  have entries := attests.whole
  have records := attests.inside
  simp only [Store.cutAt, List.length_take] at entries records
  have within : place < count := by omega
  have start : recordStart (files.index.take (41 * count)) place = recordStart files.index place :=
    recordStart_take (Nat.le_of_lt within)
  have stop : recordStart (files.index.take (41 * count)) (place + 1) =
      recordStart files.index (place + 1) := recordStart_take within
  have digest : recordStart files.index place + 32 ≤ recordStart files.index count := by
    have above := recordStart_mono files.index (Nat.succ_le_of_lt within)
    rw [recordStart] at above
    omega
  refine ⟨by omega, ?tag, ?height, by omega, ?checksum, ?decoded, attests.own, ?hash, attests.linked⟩
  case tag =>
    have tag := attests.tag
    simp only [Store.cutAt] at tag
    rwa [List.getElem?_take_of_lt (by omega)] at tag
  case height =>
    have height := attests.height
    simp only [Store.cutAt] at height
    rwa [slice_take (by omega)] at height
  case checksum =>
    have checksum := attests.checksum
    rw [bodyAt_cutAt within] at checksum
    simp only [Store.cutAt] at checksum
    rwa [start, slice_take digest] at checksum
  case decoded => rw [← bodyAt_cutAt within, attests.decoded]
  case hash =>
    have hash := attests.hash
    simp only [Store.cutAt] at hash
    rwa [slice_take (by omega)] at hash

theorem Attested.transfer (attested : Attested first files place previous blocks)
    (within : place + blocks.length ≤ count) (same : Store.cutAt other count = Store.cutAt files count) :
    Attested first other place previous blocks := by
  induction blocks generalizing place previous with
  | nil => trivial
  | cons block later ih =>
    rw [List.length_cons] at within
    have attests : Attests first (Store.cutAt files count) place previous block :=
      attested.1.cutAt (by omega)
    rw [← same] at attests
    exact ⟨attests.of_cutAt, ih attested.2 (by omega)⟩

theorem Recovered.Longest.blocks_eq {recovered : Recovered} (longest : recovered.Longest first files)
    (attested : Attested first files 0 none blocks)
    (stops : ∀ previous block, ¬ Attests first files blocks.length previous block) :
    recovered.blocks = blocks := by
  obtain ⟨rest, whole⟩ := longest.longest blocks attested
  cases rest with
  | nil => rw [← whole, List.append_nil]
  | cons block later =>
    have beyond := longest.attested
    rw [← whole, attested_append, Nat.zero_add] at beyond
    exact absurd beyond.2.1 (stops _ block)

end Front

namespace HeldChain

variable {chain : HeldChain} {files other : Files} {count : Nat}

def recordOffset (chain : HeldChain) (place : Nat) : Nat :=
  (chain.below (chain.first + place)).endOffset

structure MirroredBy (chain : HeldChain) (files : Files) : Prop where
  recovered : recover chain.first files = ⟨chain.blocks, chain.starts, none⟩
  records : files.blocks.length = chain.endOffset

theorem Recorded.mirroredBy (recorded : chain.Recorded) : chain.MirroredBy chain.files := by
  obtain ⟨same, clean⟩ := recover_survives recorded (survivesIn_files chain)
  have blocks := congrArg HeldChain.blocks same
  have starts := congrArg HeldChain.starts same
  refine ⟨?_, recorded.endOffset_eq.symm⟩
  generalize recover chain.first chain.files = recovered at clean blocks starts
  obtain ⟨found, placed, damage⟩ := recovered
  simp only [Recovered.chain, ofBlocks] at blocks starts
  obtain rfl : damage = none := clean rfl
  rw [blocks, starts]

namespace MirroredBy

theorem longest (mirrored : chain.MirroredBy files) :
    Recovered.Longest chain.first files ⟨chain.blocks, chain.starts, none⟩ := by
  rw [← mirrored.recovered]
  exact recover_longest chain.first files

theorem entries (mirrored : chain.MirroredBy files) :
    files.index.length = 41 * chain.blocks.length :=
  mirrored.longest.clean.mp rfl

theorem starts_below (mirrored : chain.MirroredBy files) (within : count ≤ chain.blocks.length) :
    (chain.below (chain.first + count)).starts =
      (List.range (count + 1)).map (recordStart files.index) := by
  have kept : min (count + 1) (chain.blocks.length + 1) = count + 1 := by omega
  have starts : chain.starts = _ := mirrored.longest.starts
  rw [below, Nat.add_sub_cancel_left, starts, ← List.map_take, List.take_range, kept]

theorem recordOffset_eq (mirrored : chain.MirroredBy files) (within : count ≤ chain.blocks.length) :
    chain.recordOffset count = recordStart files.index count := by
  rw [recordOffset, endOffset, mirrored.starts_below within]
  simp [List.range_succ]

theorem cutAt_all (mirrored : chain.MirroredBy files) : cutAt files chain.blocks.length = files := by
  have starts : chain.starts = _ := mirrored.longest.starts
  have stop : chain.endOffset = recordStart files.index chain.blocks.length := by
    rw [endOffset, starts]
    simp [List.range_succ]
  rw [cutAt, ← stop, ← mirrored.records, ← mirrored.entries, List.take_length, List.take_length]

theorem recover_front (mirrored : chain.MirroredBy files) (within : count ≤ chain.blocks.length)
    (same : cutAt other count = cutAt files count)
    (stops : ∀ previous block, ¬ Attests chain.first other count previous block) :
    let recovered := recover chain.first other
    recovered.Longest chain.first other ∧ recovered.blocks.length = count ∧
      recovered.chain chain.first = chain.below (chain.first + count) := by
  have length : (chain.blocks.take count).length = count := List.length_take_of_le within
  have longest := recover_longest chain.first other
  have front := mirrored.longest.attested
  rw [← List.take_append_drop count chain.blocks, attested_append] at front
  have blocks := longest.blocks_eq (front.1.transfer (by omega) same) (by rwa [length])
  have counted : (recover chain.first other).blocks.length = count := by rw [blocks, length]
  have index : other.index.take (41 * count) = files.index.take (41 * count) :=
    congrArg Files.index same
  have placed : ∀ place ∈ List.range (count + 1),
      recordStart other.index place = recordStart files.index place := by
    intro place member
    have least := Nat.le_of_lt_succ (List.mem_range.mp member)
    rw [← recordStart_take least, index, recordStart_take least]
  have starts : (recover chain.first other).starts = (chain.below (chain.first + count)).starts := by
    rw [longest.starts, mirrored.starts_below within, counted, List.map_congr_left placed]
  refine ⟨longest, counted, ?_⟩
  rw [Recovered.chain, ofBlocks, starts, blocks, length]
  simp only [below, Nat.add_sub_cancel_left]

end MirroredBy

end HeldChain

end CompactChain.Store
