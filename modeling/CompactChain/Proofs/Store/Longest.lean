import CompactChain.Proofs.Store.Attested
import CompactChain.Proofs.Store.Undisturbed

set_option autoImplicit false

namespace CompactChain.Store

structure Recovers (first : Nat) (files : Files) (place : Nat) (previous : Option CompactBlock)
    (count : Nat) (recovered : Recovered) : Prop where
  attested : Attested first files place previous recovered.blocks
  longest : ∀ others, Attested first files place previous others → others.length ≤ count →
    others <+: recovered.blocks
  few : recovered.blocks.length ≤ count
  starts : recovered.starts =
    (List.range (recovered.blocks.length + 1)).map fun k => recordStart files.index (place + k)
  clean : recovered.damage = none ↔ recovered.blocks.length = count
  stopped : ∀ height damage, recovered.damage = some (height, damage) →
    height = first + place + recovered.blocks.length

variable {first : Nat} {files : Files}

theorem recovers_none {place : Nat} {previous : Option CompactBlock} :
    Recovers first files place previous 0 ⟨[], [recordStart files.index place], none⟩ := by
  refine ⟨trivial, ?_, Nat.le_refl _, rfl, by simp, nofun⟩
  intro others _ few
  obtain rfl := List.length_eq_zero_iff.mp (Nat.le_zero.mp few)
  exact List.nil_prefix

theorem recovers_stopped {place count : Nat} {previous : Option CompactBlock} (damage : Damage)
    (refused : ∀ block, ¬ Attests first files place previous block) :
    Recovers first files place previous (count + 1)
      ⟨[], [recordStart files.index place], some (first + place, damage)⟩ := by
  refine ⟨trivial, ?_, Nat.zero_le _, rfl, by simp, ?_⟩
  · intro others attested _
    cases others with
    | nil => exact List.nil_prefix
    | cons block later => exact absurd attested.1 (refused block)
  · intro height _ same
    exact (Prod.mk.inj (Option.some.inj same)).1.symm

theorem Recovers.cons {place count : Nat} {previous : Option CompactBlock} {block : CompactBlock}
    {later : Recovered} (attests : Attests first files place previous block)
    (recovers : Recovers first files (place + 1) (some block) count later) :
    Recovers first files place previous (count + 1)
      ⟨block :: later.blocks, recordStart files.index place :: later.starts, later.damage⟩ := by
  refine ⟨⟨attests, recovers.attested⟩, ?longest, Nat.succ_le_succ recovers.few, ?starts, ?clean, ?stopped⟩
  case longest =>
    intro others attested few
    cases others with
    | nil => exact List.nil_prefix
    | cons other rest =>
      obtain rfl := attested.1.unique attests
      exact List.cons_prefix_cons.mpr ⟨rfl, recovers.longest rest attested.2 (Nat.le_of_succ_le_succ few)⟩
  case starts =>
    have shifted : (fun k => recordStart files.index (place + 1 + k)) =
        (fun k => recordStart files.index (place + k)) ∘ Nat.succ := by
      funext k
      simp only [Function.comp_apply, Nat.succ_eq_add_one, Nat.add_comm k 1, Nat.add_assoc]
    have range := List.range_succ_eq_map (n := later.blocks.length + 1)
    simp only [recovers.starts, List.length_cons, range, List.map_cons, List.map_map, shifted,
      Nat.add_zero]
  case clean => simpa using recovers.clean
  case stopped =>
    intro height damage same
    rw [recovers.stopped height damage same, List.length_cons]
    omega

-- The entries are taken one after another, each with the record that stands where it must.
theorem recoverFrom_recovers (count place : Nat) (previous : Option CompactBlock)
    (entries : 41 * (place + count) ≤ files.index.length) :
    Recovers first files place previous count
      (recoverFrom (first + place) (recordStart files.index place) previous count
        (files.index.drop (41 * place)) (files.blocks.drop (recordStart files.index place))) := by
  induction count generalizing place previous with
  | zero => exact recovers_none
  | succ count ih =>
    have whole : 41 * (place + 1) ≤ files.index.length := by omega
    have entry : (files.index.drop (41 * place)).take IndexEntry.encodedLength =
        slice files.index (41 * place) 41 := rfl
    rw [recoverFrom, entry]
    cases verified : verify (first + place) (slice files.index (41 * place) 41)
        (files.blocks.drop (recordStart files.index place)) previous with
    | error damage =>
      refine recovers_stopped damage fun block attests => ?_
      rw [(verify_slice_iff whole).mpr ⟨attests, rfl⟩] at verified
      contradiction
    | ok answer =>
      obtain ⟨block, length⟩ := answer
      obtain ⟨attests, rfl⟩ := (verify_slice_iff whole).mp verified
      have later := ih (place + 1) (some block) (by omega)
      have index : (files.index.drop (41 * place)).drop IndexEntry.encodedLength =
          files.index.drop (41 * (place + 1)) := List.drop_drop
      have records : (files.blocks.drop (recordStart files.index place)).drop
          (32 + bodyLengthAt files.index place) =
            files.blocks.drop (recordStart files.index (place + 1)) := List.drop_drop
      simp only [index, records]
      exact later.cons attests

structure Recovered.Longest (first : Nat) (files : Files) (recovered : Recovered) : Prop where
  attested : Attested first files 0 none recovered.blocks
  longest : ∀ others, Attested first files 0 none others → others <+: recovered.blocks
  starts : recovered.starts =
    (List.range (recovered.blocks.length + 1)).map (recordStart files.index)
  clean : recovered.damage = none ↔ files.index.length = 41 * recovered.blocks.length
  stopped : ∀ height damage, recovered.damage = some (height, damage) →
    height = first + recovered.blocks.length

-- Fewer bytes than an entry needs may follow the last one, and are damage of their own.
theorem Recovers.toLongest {count left : Nat} {found : Recovered} {damage : Option (Nat × Damage)}
    (recovers : Recovers first files 0 none count found)
    (entries : files.index.length = 41 * count + left) (short : left < 41)
    (clean : damage = none ↔ found.damage = none ∧ left = 0)
    (stopped : ∀ height fault, damage = some (height, fault) → height = first + found.blocks.length) :
    Recovered.Longest first files { found with damage := damage } := by
  refine ⟨recovers.attested, ?longest, ?starts, ?clean, stopped⟩
  case longest =>
    intro others attested
    have occupied := (attested.occupies (Nat.zero_le _) (Nat.zero_le _)).1
    exact recovers.longest others attested (by omega)
  case starts => simpa only [Nat.zero_add] using recovers.starts
  case clean =>
    have few := recovers.few
    simp only [clean, recovers.clean]
    omega

theorem recover_longest (first : Nat) (files : Files) : (recover first files).Longest first files := by
  let count := files.index.length / IndexEntry.encodedLength
  let found := recoverFrom first 0 none count files.index files.blocks
  have entries : files.index.length = 41 * count + files.index.length % 41 :=
    (Nat.div_add_mod files.index.length 41).symm
  have short : files.index.length % 41 < 41 := Nat.mod_lt _ (by decide)
  have recovers : Recovers first files 0 none count found := recoverFrom_recovers count 0 none (by omega)
  change Recovered.Longest first files
    (if found.damage.isNone && decide (files.index.length % 41 ≠ 0) then _ else found)
  split
  next trailing =>
    simp only [Bool.and_eq_true, Option.isNone_iff_eq_none, decide_eq_true_eq] at trailing
    refine recovers.toLongest entries short (by simp [trailing.2]) ?_
    intro height _ same
    rw [← (Prod.mk.inj (Option.some.inj same)).1, recovers.clean.mp trailing.1]
  next exact =>
    simp only [Bool.and_eq_true, Option.isNone_iff_eq_none, decide_eq_true_eq, not_and, not_not] at exact
    refine recovers.toLongest entries short ⟨fun none => ⟨none, exact none⟩, And.left⟩ ?_
    intro height damage same
    rw [recovers.stopped height damage same, Nat.add_zero]

theorem Contents.resize_of_le {contents : Bytes} {length : Nat} (le : length ≤ contents.length) :
    Contents.resize contents length = contents.take length := by
  rw [Contents.resize, Nat.sub_eq_zero_of_le le, List.replicate_zero, List.append_nil]

namespace Recovered.Longest

variable {recovered : Recovered}

theorem occupies (longest : recovered.Longest first files) :
    41 * recovered.blocks.length ≤ files.index.length ∧
      recordStart files.index recovered.blocks.length ≤ files.blocks.length := by
  simpa using longest.attested.occupies (Nat.zero_le _) (Nat.zero_le _)

theorem damaged_iff (longest : recovered.Longest first files) (height : Nat) :
    (∃ damage, recovered.damage = some (height, damage)) ↔
      files.index.length ≠ 41 * recovered.blocks.length ∧ height = first + recovered.blocks.length := by
  constructor
  next =>
    rintro ⟨damage, found⟩
    refine ⟨fun same => ?_, longest.stopped height damage found⟩
    rw [longest.clean.mpr same] at found
    contradiction
  next =>
    rintro ⟨more, rfl⟩
    obtain ⟨⟨height, damage⟩, found⟩ := Option.ne_none_iff_exists'.mp (mt longest.clean.mp more)
    rw [longest.stopped height damage found] at found
    exact ⟨damage, found⟩

theorem settle (longest : recovered.Longest first files) :
    recovered.settle .perfect first none files =
      (.ok (recovered.chain first), cutAt files recovered.blocks.length) := by
  obtain ⟨entries, records⟩ := longest.occupies
  have stop : (recovered.chain first).endOffset = recordStart files.index recovered.blocks.length := by
    simp [Recovered.chain, HeldChain.ofBlocks, HeldChain.endOffset, longest.starts, List.range_succ]
  have length : (recovered.chain first).indexLength = 41 * recovered.blocks.length :=
    Nat.mul_comm _ _
  rw [Recovered.settle, Script.run_perfect_eq]
  simp only [HeldChain.settle, Script.result_bind, HeldChain.cutFiles_result, Script.result_pure,
    Script.effects_bind, HeldChain.cutFiles_effects, Script.effects_pure, stop, length]
  simp [Effect.apply, Files.modify, cutAt, Contents.resize_of_le entries,
    Contents.resize_of_le records]

theorem again (longest : recovered.Longest first files) :
    recover first (cutAt files recovered.blocks.length) =
      ⟨recovered.blocks, recovered.starts, none⟩ := by
  have after := recover_longest first (cutAt files recovered.blocks.length)
  generalize recover first (cutAt files recovered.blocks.length) = second at after
  have kept : recovered.blocks <+: second.blocks :=
    after.longest _ (longest.attested.cutAt (by omega))
  have index : (cutAt files recovered.blocks.length).index.length = 41 * recovered.blocks.length :=
    List.length_take_of_le longest.occupies.1
  have few : second.blocks.length ≤ recovered.blocks.length := by
    have := after.occupies.1
    omega
  have same : recovered.blocks = second.blocks := kept.eq_of_length_le few
  obtain ⟨blocks, starts, damage⟩ := second
  subst same
  have clean : damage = none := after.clean.mpr index
  have placed : starts = recovered.starts := by
    rw [longest.starts]
    refine after.starts.trans (List.map_congr_left fun place within => ?_)
    exact recordStart_take (Nat.le_of_lt_succ (List.mem_range.mp within))
  rw [clean, placed]

end Recovered.Longest

end CompactChain.Store
