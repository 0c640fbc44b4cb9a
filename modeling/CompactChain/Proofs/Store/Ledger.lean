import CompactChain.Proofs.Store.Undisturbed

set_option autoImplicit false

namespace CompactChain.Store

inductive Question where
  | block (height : Nat)
  | nullifiers (height : Nat)
  | firstHeight
  | nextHeight
  | latestHeight
  | latestHash
  | count
  | isEmpty
  deriving DecidableEq

inductive Reply where
  | answer (answer : Except Error Unit)
  | block (found : Option CompactBlock)
  | height (height : Int)
  | hash (hash : Option Bytes)
  | count (count : Nat)
  | flag (flag : Bool)
  deriving DecidableEq

structure Ledger where
  first : Nat
  blocks : List CompactBlock
  deriving DecidableEq

namespace Ledger

def next (ledger : Ledger) : Nat :=
  ledger.first + ledger.blocks.length

def fault? (ledger : Ledger) (height : Nat) (block : CompactBlock) : Option Error :=
  if ¬ (ledger.first ≤ height ∧ height ≤ ledger.first + ledger.blocks.length) then
    some (.heightOutOfRange height ledger.first (ledger.first + ledger.blocks.length))
  else if block.height.toNat ≠ height then some (.wrongHeight height block.height.toNat)
  else if block.hash.length ≠ 32 then some (.invalidBlock (.hashLength height block.hash.length))
  else if ¬ height ≤ 0xffffffff then some .numberTooLarge
  else if height ≠ ledger.first ∧
      ledger.blocks[height - 1 - ledger.first]?.map CompactBlock.hash ≠ some block.prevHash then
    some (.chainMismatch height)
  else none

def add (ledger : Ledger) (height : Nat) (block : CompactBlock) : Except Error Ledger :=
  match ledger.fault? height block with
  | some error => .error error
  | none => .ok { ledger with blocks := ledger.blocks.take (height - ledger.first) ++ [block] }

def reorg (ledger : Ledger) (height : Nat) : Ledger :=
  { ledger with
    blocks := ledger.blocks.take
      (min ledger.blocks.length (max height ledger.first - ledger.first)) }

def get? (ledger : Ledger) (height : Nat) : Option CompactBlock :=
  if ledger.first ≤ height ∧ height < ledger.first + ledger.blocks.length then
    ledger.blocks[height - ledger.first]?
  else none

def latestHeight (ledger : Ledger) : Int :=
  if ledger.blocks = [] then -1 else (ledger.first : Int) + ledger.blocks.length - 1

def latestHash (ledger : Ledger) : Option Bytes :=
  ledger.blocks.getLast?.map CompactBlock.hash

def reply (ledger : Ledger) : Question → Reply
  | .block height => .block (ledger.get? height)
  | .nullifiers height => .block ((ledger.get? height).map CompactBlock.nullifiersOnly)
  | .firstHeight => .height ledger.first
  | .nextHeight => .height ledger.next
  | .latestHeight => .height ledger.latestHeight
  | .latestHash => .hash ledger.latestHash
  | .count => .count ledger.blocks.length
  | .isEmpty => .flag ledger.blocks.isEmpty

end Ledger

namespace HeldChain

def reply (chain : HeldChain) : Question → Reply
  | .block height => .block (chain.get? height)
  | .nullifiers height => .block (chain.nullifiersAt? height)
  | .firstHeight => .height chain.first
  | .nextHeight => .height chain.next
  | .latestHeight => .height chain.latestHeight
  | .latestHash => .hash chain.latestHash
  | .count => .count chain.blocks.length
  | .isEmpty => .flag chain.blocks.isEmpty

variable {chain : HeldChain}

abbrev ledger (chain : HeldChain) : Ledger :=
  ⟨chain.first, chain.blocks⟩

theorem Sound.get?_ledger (sound : chain.Sound) (height : Nat) :
    chain.get? height = chain.ledger.get? height := by
  have next := sound.next_eq
  simp only [get?, Ledger.get?]
  by_cases inside : chain.first ≤ height ∧ height < chain.first + chain.blocks.length
  next => rw [if_neg (by omega), if_pos inside]
  next => rw [if_pos (by omega), if_neg inside]

theorem Sound.latestHeight_ledger (sound : chain.Sound) :
    chain.latestHeight = chain.ledger.latestHeight := by
  have next := sound.next_eq
  simp only [latestHeight, Ledger.latestHeight]
  by_cases empty : chain.blocks = []
  next =>
    have none : chain.next = chain.first := by simpa [empty] using next
    rw [if_pos none, if_pos empty]
  next =>
    have positive := List.length_pos_iff.mpr empty
    rw [if_neg (by omega), if_neg empty]
    omega

theorem Sound.reply_ledger (sound : chain.Sound) (question : Question) :
    chain.reply question = chain.ledger.reply question := by
  cases question with
  | block height => exact congrArg Reply.block (sound.get?_ledger height)
  | nullifiers height =>
    simp only [reply, Ledger.reply, nullifiersAt?, sound.get?_ledger]
  | nextHeight => simp only [reply, Ledger.reply, Ledger.next, sound.next_eq]
  | latestHeight => simp only [reply, Ledger.reply, sound.latestHeight_ledger]
  | latestHash => exact congrArg Reply.hash sound.latestHash
  | firstHeight => rfl
  | count => rfl
  | isEmpty => rfl

theorem hashBelow?_ledger {height : Nat} (above : chain.first ≤ height)
    (within : height ≤ chain.next) :
    chain.hashBelow? height =
      if height = chain.first then none
      else chain.blocks[height - 1 - chain.first]?.map CompactBlock.hash := by
  unfold hashBelow? hashAt? get?
  by_cases start : height = chain.first
  next =>
    by_cases zero : chain.first = 0
    next => simp [start, zero]
    next =>
      have outside : chain.first - 1 < chain.first := by omega
      simp [start, zero, outside]
  next =>
    have positive : height ≠ 0 := by omega
    have inside : ¬ (height - 1 < chain.first ∨ chain.next ≤ height - 1) := by omega
    simp only [if_neg positive, if_neg inside, if_neg start]

theorem Sound.validate_ledger (sound : chain.Sound) (height : Nat) (block : CompactBlock) :
    chain.validate height block =
      match chain.ledger.fault? height block with
      | some error => .error error
      | none => .ok () := by
  have next := sound.next_eq
  simp only [validate, Ledger.fault?, ← next]
  by_cases range : chain.first ≤ height ∧ height ≤ chain.next
  next =>
    rw [if_neg (by omega), if_neg (not_not_intro range), hashBelow?_ledger range.1 range.2]
    by_cases own : block.height.toNat = height
    next =>
      rw [if_neg (not_not_intro own), if_neg (not_not_intro own)]
      by_cases hash : block.hash.length = 32
      next =>
        rw [if_neg (not_not_intro hash), if_neg (not_not_intro hash)]
        by_cases low : height ≤ 0xffffffff
        next =>
          rw [if_neg (by omega), if_neg (not_not_intro low)]
          by_cases start : height = chain.first
          next => simp [start]
          next =>
            have there : height - 1 - chain.first < chain.blocks.length := by omega
            have below := List.getElem?_eq_getElem there
            by_cases linked : block.prevHash = chain.blocks[height - 1 - chain.first].hash
            next => simp [start, below, linked]
            next => simp [start, below, linked, Ne.symm linked]
        next => rw [if_pos (by omega), if_pos low]
      next => rw [if_pos hash, if_pos hash]
    next => rw [if_pos own, if_pos own]
  next => rw [if_pos (by omega), if_pos range]

theorem Sound.add_ledger (sound : chain.Sound) (height : Nat) {block : CompactBlock}
    (short : block.encode.length < 0x100000000) :
    (chain.add height block).result.answer =
        (chain.ledger.add height block).map (fun _ => ()) ∧
      (chain.add height block).result.chain.ledger =
        (chain.ledger.add height block).toOption.getD chain.ledger := by
  have valid := sound.validate_ledger height block
  rw [add_result sound, Ledger.add]
  cases fault : chain.ledger.fault? height block with
  | some error =>
    simp only [fault] at valid
    simp only [valid]
    exact ⟨rfl, rfl⟩
  | none =>
    simp only [fault] at valid
    simp only [valid, append_result, if_neg (Nat.not_le.mpr short)]
    exact ⟨rfl, rfl⟩

theorem Sound.reorg_ledger (sound : chain.Sound) (height : Nat) :
    (chain.reorg height).result.answer = .ok () ∧
      (chain.reorg height).result.chain.ledger = chain.ledger.reorg height := by
  have next := sound.next_eq
  have kept : min height chain.next - chain.first =
      min chain.blocks.length (max height chain.first - chain.first) := by omega
  rw [reorg_result sound]
  simp only [discard, below, Ledger.reorg, kept]
  trivial

end HeldChain

end CompactChain.Store
