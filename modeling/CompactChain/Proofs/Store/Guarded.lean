import CompactChain.Proofs.Store.Attested
import CompactChain.Store.Guarded

set_option autoImplicit false

namespace CompactChain.Store

theorem lookUp_ok (height : Nat) (rawEntry : Bytes) {data : Bytes} {offset : Nat}
    (within : offset ≤ data.length) (small : data.length ≤ roomLimit) :
    lookUp height rawEntry data offset = .ok () := by
  unfold lookUp
  split
  · rfl
  next entry _ =>
    have short := entry.bodyLength.toNat_lt
    have low : offset + (checksumLength + entry.bodyLength.toNat) < offsetLimit := by
      simp only [checksumLength, roomLimit, offsetLimit] at small ⊢
      omega
    split
    · rfl
    simp only
    rw [if_neg (Nat.not_le.mpr low), if_neg]
    rintro ⟨inside, less⟩
    rw [List.length_drop, List.length_take, Nat.min_eq_left inside] at less
    omega

-- `front` are the starts of the blocks that are held, and the next record is looked for at `offset`.
theorem recoverAt_eq (first : Nat) {data : Bytes} (small : data.length ≤ roomLimit) (count : Nat)
    (index : Bytes) (held : List CompactBlock) (front : List Nat) (offset : Nat)
    (counted : front.length = held.length) (within : offset ≤ data.length) :
    recoverAt first data held (front ++ [offset]) (entriesOf count index) =
      let found := recoverFrom (first + held.length) offset held.getLast? count index (data.drop offset)
      .ok ⟨held ++ found.blocks, front ++ found.starts, found.damage⟩ := by
  induction count generalizing index held front offset with
  | zero => simp [entriesOf, recoverAt, recoverFrom]
  | succ count ih =>
    have start : (front ++ [offset])[held.length]? = some offset := by
      rw [← counted, List.getElem?_concat_length]
    rw [entriesOf, recoverAt, recoverFrom]
    simp only [start, lookUp_ok _ _ within small]
    cases verified : verify (first + held.length) (index.take IndexEntry.encodedLength)
        (data.drop offset) held.getLast? with
    | error damage => simp
    | ok answer =>
      obtain ⟨block, length⟩ := answer
      have inside := (length_of_verify verified).2
      rw [List.length_drop] at inside
      simp only
      rw [ih _ (held ++ [block]) (front ++ [offset]) (offset + length) (by simp [counted]) (by omega)]
      simp [Nat.add_assoc]

theorem checkLatest_recover {first : Nat} (low : first < 0x100000000) (files : Files) :
    (recover first files).checkLatest = .ok (recover first files) := by
  have follows := (recover_sound low files).follows
  unfold Recovered.checkLatest
  split
  · rfl
  next block last =>
    rw [List.getLast?_eq_getElem?] at last
    rw [if_pos (follows.height_eq last).2]

theorem recoverGuarded_eq {expected first : Nat} (low : first < 0x100000000) {files : Files}
    (small : files.blocks.length ≤ roomLimit) :
    recoverGuarded expected first files =
      (makeRoom expected (files.index.length / IndexEntry.encodedLength)).map fun _ =>
        recover first files := by
  have found := recoverAt_eq first small (files.index.length / IndexEntry.encodedLength) files.index
    [] [] 0 rfl (Nat.zero_le _)
  simp only [List.nil_append] at found
  have trailing : (recoverFrom first 0 none (files.index.length / IndexEntry.encodedLength) files.index
      files.blocks).withTrailing (first + files.index.length / IndexEntry.encodedLength)
        (files.index.length % IndexEntry.encodedLength) = recover first files := rfl
  simp only [recoverGuarded, bind, Except.bind]
  cases makeRoom expected (files.index.length / IndexEntry.encodedLength) with
  | error stop => rfl
  | ok room =>
    simp only [found]
    exact (congrArg Recovered.checkLatest trailing).trans (checkLatest_recover low files)

def HasRoom (expected : Nat) (files : Files) : Prop :=
  max expected (files.index.length / IndexEntry.encodedLength) * blockSize ≤ roomLimit

section HasRoom

variable {expected : Nat} {files : Files}

theorem HasRoom.makeRoom (room : HasRoom expected files) :
    makeRoom expected (files.index.length / IndexEntry.encodedLength) = .ok () := if_pos room

theorem makeRoom_of_not (without : ¬ HasRoom expected files) :
    makeRoom expected (files.index.length / IndexEntry.encodedLength) = .error .noRoom := if_neg without

theorem length_cutAt_le (files : Files) (count : Nat) :
    (cutAt files count).blocks.length ≤ files.blocks.length ∧
      (cutAt files count).index.length ≤ files.index.length :=
  ⟨List.length_take_le' _ _, List.length_take_le' _ _⟩

theorem HasRoom.cutAt (room : HasRoom expected files) (count : Nat) :
    HasRoom expected (cutAt files count) := by
  have fewer := Nat.div_le_div_right (c := IndexEntry.encodedLength) (length_cutAt_le files count).2
  exact Nat.le_trans (Nat.mul_le_mul_right _ (by omega)) room

end HasRoom

end CompactChain.Store
