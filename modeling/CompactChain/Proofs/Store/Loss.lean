import CompactChain.Proofs.Store.Mirrored
import Mathlib.Data.Nat.SuccPred
import Mathlib.Order.SuccPred.Archimedean

set_option autoImplicit false

namespace CompactChain.Store.HeldChain

variable {chain : HeldChain} {files : Files} {blocks index kept : Nat}

/-- How many blocks may be read where so many bytes are left of both files: the entries and the records
of all of them are whole. -/
def Readable (chain : HeldChain) (blocks index : Nat) : Set Nat :=
  {count | count ≤ chain.blocks.length ∧ 41 * count ≤ index ∧ chain.recordOffset count ≤ blocks}

namespace MirroredBy

theorem exists_readable (mirrored : chain.MirroredBy files) (blocks index : Nat) :
    ∃ kept, IsGreatest (chain.Readable blocks index) kept := by
  have bounded : BddAbove (chain.Readable blocks index) :=
    ⟨chain.blocks.length, fun count readable => readable.1⟩
  have nothing : chain.recordOffset 0 = 0 := mirrored.recordOffset_eq (Nat.zero_le _)
  have readable : 0 ∈ chain.Readable blocks index := by simp [Readable, nothing]
  exact bounded.exists_isGreatest_of_nonempty ⟨0, readable⟩

theorem recover_loss (mirrored : chain.MirroredBy files)
    (greatest : IsGreatest (chain.Readable blocks index) kept) :
    let left : Files := ⟨files.blocks.take blocks, files.index.take index⟩
    let recovered := recover chain.first left
    recovered.Longest chain.first left ∧ recovered.blocks.length = kept ∧
      recovered.chain chain.first = chain.below (chain.first + kept) := by
  obtain ⟨⟨within, entries, records⟩, most⟩ := greatest
  rw [mirrored.recordOffset_eq within] at records
  have whole : (files.index.take index).take (41 * kept) = files.index.take (41 * kept) := by
    rw [List.take_take, Nat.min_eq_left entries]
  apply mirrored.recover_front within
  next => exact cutAt_congr whole (by rw [List.take_take, Nat.min_eq_left records])
  next =>
    -- one more block would be readable too
    intro previous block attests
    have entry := attests.whole
    have record := attests.inside
    have length := mirrored.entries
    simp only [List.length_take] at entry record
    have more : kept + 1 ≤ chain.blocks.length := by omega
    have longer : (files.index.take index).take (41 * (kept + 1)) =
        files.index.take (41 * (kept + 1)) := by
      rw [List.take_take, Nat.min_eq_left (by omega)]
    have stop := recordStart_congr longer
    have readable : kept + 1 ∈ chain.Readable blocks index := by
      refine ⟨more, by omega, ?_⟩
      rw [mirrored.recordOffset_eq more]
      omega
    exact absurd (most readable) (by omega)

end MirroredBy

end CompactChain.Store.HeldChain
