import CompactChain.Store.Operation
import Mathlib.Algebra.GroupWithZero.Nat

set_option autoImplicit false

namespace CompactChain.Store

structure Fits (height : Nat) (previous : Option CompactBlock) (block : CompactBlock) : Prop where
  own : block.height.toNat = height
  low : height < 0x100000000
  hash : block.hash.length = 32
  linked : ∀ below ∈ previous, block.prevHash = below.hash

def Follows (height : Nat) (previous : Option CompactBlock) : List CompactBlock → Prop
  | [] => True
  | block :: rest => Fits height previous block ∧ Follows (height + 1) (some block) rest

theorem getLast?_cons_or {block : CompactBlock} {rest : List CompactBlock}
    {previous : Option CompactBlock} :
    (block :: rest).getLast?.or previous = rest.getLast?.or (some block) := by
  rw [List.getLast?_cons]
  cases rest.getLast? <;> rfl

theorem follows_append {height : Nat} {previous : Option CompactBlock}
    {first second : List CompactBlock} :
    Follows height previous (first ++ second) ↔
      Follows height previous first ∧
        Follows (height + first.length) (first.getLast?.or previous) second := by
  induction first generalizing height previous with
  | nil => simp [Follows]
  | cons block rest ih =>
    have above : height + 1 + rest.length = height + (block :: rest).length := by
      rw [List.length_cons]
      omega
    rw [List.cons_append, Follows, Follows, ih, getLast?_cons_or, above, and_assoc]

theorem Follows.take {height : Nat} {previous : Option CompactBlock} {blocks : List CompactBlock}
    (follows : Follows height previous blocks) (count : Nat) :
    Follows height previous (blocks.take count) := by
  rw [← List.take_append_drop count blocks, follows_append] at follows
  exact follows.1

theorem Follows.height_eq {height : Nat} {previous : Option CompactBlock}
    {blocks : List CompactBlock} (follows : Follows height previous blocks) {i : Nat}
    {block : CompactBlock} (found : blocks[i]? = some block) :
    block.height.toNat = height + i ∧ block.hash.length = 32 := by
  induction blocks generalizing height previous i with
  | nil => simp at found
  | cons first rest ih =>
    cases i with
    | zero =>
      obtain rfl : first = block := by simpa using found
      exact ⟨follows.1.own, follows.1.hash⟩
    | succ i =>
      have later := ih follows.2 (by simpa using found)
      exact ⟨by omega, later.2⟩

theorem Follows.linked {height : Nat} {previous : Option CompactBlock}
    {blocks : List CompactBlock} (follows : Follows height previous blocks) {i : Nat}
    {below above : CompactBlock} (lower : blocks[i]? = some below)
    (upper : blocks[i + 1]? = some above) : above.prevHash = below.hash := by
  induction blocks generalizing height previous i with
  | nil => simp at lower
  | cons first rest ih =>
    cases i with
    | zero =>
      obtain rfl : first = below := by simpa using lower
      cases rest with
      | nil => simp at upper
      | cons second rest =>
        obtain rfl : second = above := by simpa using upper
        exact follows.2.1.linked first rfl
    | succ i => exact ih follows.2 (by simpa using lower) (by simpa using upper)

theorem Follows.next_le {height : Nat} {previous : Option CompactBlock}
    {blocks : List CompactBlock} (follows : Follows height previous blocks)
    (start : height ≤ 0x100000000) : height + blocks.length ≤ 0x100000000 := by
  induction blocks generalizing height previous with
  | nil => exact start
  | cons block rest ih =>
    have later := ih follows.2 follows.1.low
    rw [List.length_cons]
    omega

def recordStarts (offset : Nat) (lengths : List Nat) : List Nat :=
  lengths.scanl (· + ·) offset

@[simp] theorem length_recordStarts (offset : Nat) (lengths : List Nat) :
    (recordStarts offset lengths).length = lengths.length + 1 :=
  List.length_scanl

@[simp] theorem recordStarts_nil (offset : Nat) : recordStarts offset [] = [offset] := rfl

@[simp] theorem recordStarts_cons (offset length : Nat) (lengths : List Nat) :
    recordStarts offset (length :: lengths) = offset :: recordStarts (offset + length) lengths :=
  List.scanl_cons

theorem take_recordStarts (offset count : Nat) (lengths : List Nat) :
    (recordStarts offset lengths).take (count + 1) = recordStarts offset (lengths.take count) :=
  List.take_scanl offset lengths count

theorem getLast?_recordStarts (lengths : List Nat) :
    (recordStarts 0 lengths).getLast? = some lengths.sum := by
  rw [recordStarts, List.getLast?_scanl, List.sum_eq_foldl]

theorem recordStarts_concat (lengths : List Nat) (length : Nat) :
    recordStarts 0 (lengths ++ [length]) = recordStarts 0 lengths ++ [lengths.sum + length] := by
  simp [recordStarts, List.scanl_append, List.sum_eq_foldl]

namespace HeldChain

structure Sound (chain : HeldChain) : Prop where
  next_eq : chain.next = chain.first + chain.blocks.length
  next_le : chain.next ≤ 0x100000000
  follows : Follows chain.first none chain.blocks
  latestHash : chain.latestHash = chain.blocks.getLast?.map CompactBlock.hash
  starts : ∃ lengths, chain.starts = recordStarts 0 lengths ∧
    lengths.length = chain.blocks.length ∧ ∀ length ∈ lengths, checksumLength ≤ length

structure Consistent (chain : HeldChain) : Prop where
  next_eq : chain.next = chain.first + chain.blocks.length
  next_le : chain.next ≤ 0x100000000
  height : ∀ (i : Nat) (block : CompactBlock), chain.blocks[i]? = some block →
    block.height.toNat = chain.first + i
  hash_length : ∀ (i : Nat) (block : CompactBlock), chain.blocks[i]? = some block →
    block.hash.length = 32
  linked : ∀ (i : Nat) (below above : CompactBlock), chain.blocks[i]? = some below →
    chain.blocks[i + 1]? = some above → above.prevHash = below.hash
  latestHash : chain.latestHash = chain.blocks.getLast?.map CompactBlock.hash
  starts_length : chain.starts.length = chain.blocks.length + 1
  starts_zero : chain.starts[0]? = some 0
  starts_grow : ∀ (i start stop : Nat), chain.starts[i]? = some start →
    chain.starts[i + 1]? = some stop → start + 32 ≤ stop

theorem Sound.consistent {chain : HeldChain} (sound : chain.Sound) : chain.Consistent := by
  obtain ⟨lengths, starts, counted, least⟩ := sound.starts
  refine ⟨sound.next_eq, sound.next_le, ?height, ?hash, ?linked, sound.latestHash, ?starts, ?zero,
    ?grow⟩
  case height => exact fun i block found => (sound.follows.height_eq found).1
  case hash => exact fun i block found => (sound.follows.height_eq found).2
  case linked => exact fun i below above lower upper => sound.follows.linked lower upper
  case starts => rw [starts, length_recordStarts, counted]
  case zero => rw [starts, recordStarts, List.getElem?_scanl_zero]
  case grow =>
    intro i start stop lower upper
    rw [starts, recordStarts] at lower upper
    rw [List.getElem?_succ_scanl, lower] at upper
    cases length : lengths[i]? with
    | none => simp [length] at upper
    | some length' =>
      have := least length' (List.mem_of_getElem? length)
      simp only [length, Option.bind_some, Option.map_some, Option.some.injEq,
        checksumLength] at upper this
      omega

theorem endOffset_eq {chain : HeldChain} {lengths : List Nat}
    (starts : chain.starts = recordStarts 0 lengths) : chain.endOffset = lengths.sum := by
  rw [endOffset, starts, getLast?_recordStarts, Option.getD_some]

theorem empty_sound {first : Nat} (low : first < 0x100000000) : (empty first).Sound := by
  refine ⟨rfl, Nat.le_of_lt low, True.intro, rfl, [], rfl, rfl, ?_⟩
  simp

section Parts

variable {chain : HeldChain} {height : Nat}

theorem length_below (sound : chain.Sound) (within : height ≤ chain.next) :
    (chain.below height).blocks.length = height - chain.first := by
  have := sound.next_eq
  simp only [below, List.length_take]
  omega

theorem below_next (sound : chain.Sound) : chain.below chain.next = chain := by
  obtain ⟨lengths, starts, counted, _⟩ := sound.starts
  have kept : chain.next - chain.first = chain.blocks.length := by
    have := sound.next_eq
    omega
  have all : chain.starts.take (chain.blocks.length + 1) = chain.starts := by
    have length : chain.starts.length = chain.blocks.length + 1 := by
      rw [starts, length_recordStarts, counted]
    exact List.take_of_length_le (Nat.le_of_eq length)
  have latest := sound.latestHash
  have next := sound.next_eq
  cases chain
  simp_all [below]

theorem below_sound (sound : chain.Sound) (within : height ≤ chain.next) :
    (chain.below height).Sound := by
  obtain ⟨lengths, starts, counted, least⟩ := sound.starts
  have next := sound.next_eq
  refine ⟨?next, ?low, sound.follows.take _, rfl, lengths.take (height - chain.first), ?starts,
    ?counted, ?least⟩
  case next =>
    rw [length_below sound within]
    rfl
  case low =>
    have := sound.next_le
    simp only [below]
    omega
  case starts => simp only [below, starts, take_recordStarts]
  case counted => simp only [below, List.length_take, counted]
  case least => exact fun length member => least length (List.mem_of_mem_take member)

theorem push_sound {block : CompactBlock} {recordLength : Nat} (sound : chain.Sound)
    (fits : Fits chain.next chain.blocks.getLast? block)
    (least : checksumLength ≤ recordLength) : (chain.push block recordLength).Sound := by
  obtain ⟨lengths, starts, counted, each⟩ := sound.starts
  have next := sound.next_eq
  refine ⟨?next, fits.low, ?follows, by simp [push], lengths ++ [recordLength], ?starts, ?counted,
    ?least⟩
  case next =>
    simp only [push, List.length_append, List.length_singleton]
    omega
  case follows =>
    rw [push, follows_append, ← next, Option.or_none]
    exact ⟨sound.follows, fits, True.intro⟩
  case starts => simp only [push, endOffset_eq starts, recordStarts_concat, starts]
  case counted => simp only [push, List.length_append, List.length_singleton, counted]
  case least =>
    intro length member
    cases List.mem_append.mp member with
    | inl old => exact each length old
    | inr new => rw [List.mem_singleton.mp new]; exact least

theorem hashBelow?_eq (sound : chain.Sound) (above : chain.first ≤ height)
    (within : height ≤ chain.next) :
    chain.hashBelow? height = (chain.below height).blocks.getLast?.map CompactBlock.hash := by
  have next := sound.next_eq
  by_cases start : height = chain.first
  · subst start
    simp only [hashBelow?, hashAt?, get?, below, Nat.sub_self, List.take_zero]
    by_cases zero : chain.first = 0
    · simp [zero]
    · have outside : chain.first - 1 < chain.first := by omega
      simp [zero, outside]
  · have positive : height ≠ 0 := by omega
    have inside : ¬ (height - 1 < chain.first ∨ chain.next ≤ height - 1) := by omega
    have some? : height - chain.first ≠ 0 := by omega
    have position : height - 1 - chain.first = height - chain.first - 1 := by omega
    have there : height - chain.first - 1 < chain.blocks.length := by omega
    rw [hashBelow?, if_neg positive, hashAt?, get?, if_neg inside, below, List.getLast?_take,
      if_neg some?, position, List.getElem?_eq_getElem there, Option.some_or]

theorem validate_ok {block : CompactBlock} (sound : chain.Sound)
    (valid : chain.validate height block = .ok ()) :
    chain.first ≤ height ∧ height ≤ chain.next ∧
      Fits height (chain.below height).blocks.getLast? block := by
  unfold validate at valid
  split at valid
  · contradiction
  next range =>
    have above : chain.first ≤ height := by omega
    have within : height ≤ chain.next := by omega
    rw [hashBelow?_eq sound above within] at valid
    split at valid
    · contradiction
    split at valid
    · contradiction
    split at valid
    · contradiction
    split at valid
    · contradiction
    next own hash low linked =>
      refine ⟨above, within, by omega, by omega, by omega, ?_⟩
      intro last held
      rw [Option.mem_def.mp held] at linked
      simpa using linked

end Parts

end HeldChain

end CompactChain.Store
