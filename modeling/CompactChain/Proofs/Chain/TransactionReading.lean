import CompactChain.Proofs.Chain.TransactionForm

set_option autoImplicit false

namespace CompactChain

open Reader (recognizes_skip recognizes_bytes recognizes_u32 recognizes_u64 recognizes_i64
  recognizes_list reads_pure reads_ofExcept reads_withBytes)
open CompactSize (reads_counted recognizes_read recognizes_readPrefixed recognizes_skipPrefixed)

theorem TransparentInput.recognizes : read.Recognizes InputForm.layout InputForm.input := by
  intro taken answer
  simp only [read, (recognizes_skip _ _).reads_bind, (recognizes_readPrefixed _).reads_bind, reads_pure]
  constructor
  · rintro ⟨hash, _, rfl, index, _, rfl, script, _, rfl, sequence, _, rfl, rfl, rfl⟩
    exact ⟨⟨hash, index, script, sequence⟩, rfl, rfl⟩
  · rintro ⟨⟨hash, index, script, sequence⟩, rfl, rfl⟩
    exact ⟨hash, _, rfl, index, _, rfl, script, _, rfl, sequence, _, rfl, rfl, rfl⟩

theorem TransparentOutput.recognizes : read.Recognizes OutputForm.layout OutputForm.output := by
  intro taken answer
  simp only [read, (recognizes_u64 _).reads_bind, (recognizes_skipPrefixed _).reads_bind, reads_pure]
  constructor
  · rintro ⟨value, _, rfl, script, _, rfl, rfl, rfl⟩
    exact ⟨⟨value, script⟩, rfl, rfl⟩
  · rintro ⟨⟨value, script⟩, rfl, rfl⟩
    exact ⟨value, _, rfl, script, _, rfl, rfl, rfl⟩

theorem Action.recognizes : read.Recognizes ActionForm.layout ActionForm.action := by
  intro taken answer
  simp only [read, (recognizes_skip _ _).reads_bind, (recognizes_bytes _ _).reads_bind, reads_pure]
  constructor
  · rintro ⟨value, _, rfl, nullifier, _, rfl, key, _, rfl, commitment, _, rfl, ephemeral, _, rfl,
      ciphertext, _, rfl, out, _, rfl, rfl, rfl⟩
    exact ⟨⟨value, nullifier, key, commitment, ephemeral, ciphertext, out⟩, rfl, rfl⟩
  · rintro ⟨⟨value, nullifier, key, commitment, ephemeral, ciphertext, out⟩, rfl, rfl⟩
    exact ⟨value, _, rfl, nullifier, _, rfl, key, _, rfl, commitment, _, rfl, ephemeral, _, rfl,
      ciphertext, _, rfl, out, _, rfl, rfl, rfl⟩

namespace TransactionBody

variable {taken : Layout}

theorem recognizes_readTransparent :
    readTransparent.Recognizes TransparentForm.layout TransparentForm.inputsAndOutputs := by
  intro taken answer
  simp only [readTransparent, reads_counted TransparentInput.recognizes,
    reads_counted TransparentOutput.recognizes, reads_pure]
  constructor
  · rintro ⟨inputs, _, rfl, outputs, _, rfl, rfl, rfl⟩
    exact ⟨⟨inputs, outputs⟩, rfl, rfl⟩
  · rintro ⟨⟨inputs, outputs⟩, rfl, rfl⟩
    exact ⟨inputs, _, rfl, outputs, _, rfl, rfl, rfl⟩

theorem reads_expectGroup {expected found : UInt32} {f : Unit → Reader TransactionBody}
    {answer : TransactionBody} :
    (expectGroup expected found >>= f).Reads taken answer ↔
      found = expected ∧ (f ()).Reads taken answer := by
  unfold expectGroup
  split
  next same => exact (and_iff_right same).symm
  next differs => exact ⟨False.elim, fun both => absurd both.1 differs⟩

theorem recognizes_readEmptyPool (name : Field) (pool : ShieldedPool) :
    (readEmptyPool name pool).Recognizes
      (fun _ : Unit => Layout.field name (CompactSize.write 0)) fun _ => () := by
  intro taken answer
  simp only [readEmptyPool, (recognizes_read _).reads_bind]
  constructor
  · rintro ⟨⟨count, _⟩, later, rfl, reads⟩
    split at reads
    next none =>
      obtain rfl : count = 0 := none
      obtain ⟨rfl, _⟩ := reads
      exact ⟨(), (List.append_nil _).symm, trivial⟩
    · exact reads.elim
  · rintro ⟨_, rfl, _⟩
    exact ⟨⟨0, Nat.zero_le _⟩, [], (List.append_nil _).symm, rfl, rfl⟩

theorem reads_readActionCount {count : Nat} :
    readActionCount.Reads taken count ↔
      count < actionCountBound ∧
        taken = Layout.field "TransactionData::nActionsOrchard" (CompactSize.write count) := by
  simp only [readActionCount, (recognizes_read _).reads_bind]
  constructor
  · rintro ⟨⟨count, _⟩, later, rfl, reads⟩
    split at reads
    next few =>
      obtain ⟨rfl, rfl⟩ := reads
      exact ⟨few, List.append_nil _⟩
    · exact reads.elim
  · rintro ⟨few, rfl⟩
    have short : count ≤ CompactSize.limit := Nat.le_trans (Nat.le_of_lt few) (by decide)
    refine ⟨⟨count, short⟩, [], (List.append_nil _).symm, ?_⟩
    rw [if_pos few]
    exact ⟨rfl, rfl⟩

theorem reads_readBundle {count : Nat} {answer : OrchardBundle} (some : count ≠ 0)
    (few : count < actionCountBound) :
    (OrchardBundle.read count).Reads taken answer ↔
      ∃ form : BundleForm, form.actions.length = count ∧ form.layout = taken ∧ form.bundle = answer := by
  simp only [OrchardBundle.read, (recognizes_list Action.recognizes _ _).reads_bind,
    (recognizes_skip _ _).reads_bind, (recognizes_i64 _).reads_bind,
    (recognizes_bytes _ _).reads_bind, (recognizes_skipPrefixed _).reads_bind, reads_pure]
  constructor
  · rintro ⟨⟨actions, rfl⟩, _, rfl, flags, _, rfl, balance, _, rfl, anchor, _, rfl, proofs, _, rfl,
      signatures, _, rfl, binding, _, rfl, rfl, rfl⟩
    have nonempty : actions ≠ [] := fun none => some (List.length_eq_zero_iff.mpr none)
    have counted : 64 * (actions.map ActionForm.action).length = 64 * actions.length := by
      rw [List.length_map]
    exact ⟨⟨actions, nonempty, few, flags, balance, anchor, proofs,
      ⟨signatures, signatures.property.trans counted⟩, binding⟩, rfl, rfl, rfl⟩
  · rintro ⟨⟨actions, nonempty, few, flags, balance, anchor, proofs, signatures, binding⟩, rfl, rfl, rfl⟩
    have counted : 64 * actions.length = 64 * (actions.map ActionForm.action).length := by
      rw [List.length_map]
    exact ⟨⟨actions, rfl⟩, _, rfl, flags, _, rfl, balance, _, rfl, anchor, _, rfl, proofs, _, rfl,
      ⟨signatures, signatures.property.trans counted⟩, _, rfl, binding, _, rfl, rfl, rfl⟩

theorem recognizes_readOrchard :
    readOrchard.Recognizes BundleForm.layoutCounted fun form => form.map BundleForm.bundle := by
  intro taken answer
  simp only [readOrchard, Reader.reads_bind, reads_readActionCount]
  constructor
  · rintro ⟨_, count, later, rfl, ⟨few, rfl⟩, reads⟩
    split at reads
    next none =>
      obtain ⟨rfl, rfl⟩ := reads
      exact ⟨.none, by rw [none, List.append_nil]; rfl, rfl⟩
    next any =>
      obtain ⟨_, _, _, rfl, bundle, rfl, rfl⟩ := Reader.reads_bind.mp reads
      obtain ⟨form, rfl, rfl, rfl⟩ := (reads_readBundle any few).mp bundle
      exact ⟨.some form, by rw [List.append_nil]; rfl, rfl⟩
  · rintro ⟨_ | form, rfl, rfl⟩
    next => exact ⟨_, 0, [], (List.append_nil _).symm, ⟨by decide, rfl⟩, rfl, rfl⟩
    next =>
      have any : form.actions.length ≠ 0 := fun none => form.nonempty (List.length_eq_zero_iff.mp none)
      have bundle := (reads_readBundle any form.few).mpr ⟨form, rfl, rfl, rfl⟩
      refine ⟨_, form.actions.length, form.layout, rfl, ⟨form.few, rfl⟩, ?_⟩
      rw [if_neg any]
      exact Reader.reads_bind.mpr ⟨_, _, [], (List.append_nil _).symm, bundle, rfl, rfl⟩

theorem header_eq {header version : UInt32} :
    header >>> 31 = 1 ∧ header &&& 0x7fffffff = version ↔
      version.toNat < 0x80000000 ∧ 0x80000000 + version.toNat = header.toNat := by
  have small := header.toNat_lt
  have top : (header >>> 31).toNat = header.toNat / 0x80000000 := by
    rw [UInt32.toNat_shiftRight, Nat.shiftRight_eq_div_pow]
    rfl
  have rest : (header &&& 0x7fffffff).toNat = header.toNat % 0x80000000 := by
    rw [UInt32.toNat_and]
    exact Nat.and_two_pow_sub_one_eq_mod header.toNat 31
  rw [← UInt32.toNat_inj, ← UInt32.toNat_inj, top, rest]
  have : (1 : UInt32).toNat = 1 := rfl
  omega

theorem reads_readVersion {version : UInt32} :
    readVersion.Reads taken version ↔
      taken = TransactionForm.layoutHeader version ∧ 4 ≤ version.toNat ∧ version.toNat < 0x80000000 := by
  simp only [readVersion, (recognizes_u32 _).reads_bind, id]
  constructor
  · rintro ⟨header, later, rfl, reads⟩
    split at reads
    · exact reads.elim
    next top =>
      split at reads
      · exact reads.elim
      next least =>
        obtain ⟨rfl, rfl⟩ := reads
        obtain ⟨low, whole⟩ := header_eq.mp ⟨not_not.mp top, rfl⟩
        refine ⟨?_, by simpa [UInt32.lt_iff_toNat_lt] using least, low⟩
        rw [TransactionForm.layoutHeader, whole, List.append_nil]
  · rintro ⟨rfl, least, low⟩
    have fits : 0x80000000 + version.toNat < UInt32.size := by
      have : UInt32.size = 0x100000000 := rfl
      omega
    have whole := UInt32.toNat_ofNat_of_lt' fits
    obtain ⟨top, rest⟩ := header_eq.mpr ⟨low, whole.symm⟩
    refine ⟨UInt32.ofNat (0x80000000 + version.toNat), [], ?_, ?_⟩
    · rw [whole, List.append_nil, TransactionForm.layoutHeader]
    · have enough : ¬ version < 4 := by simpa [UInt32.lt_iff_toNat_lt] using least
      rw [rest, if_neg (not_not.mpr top), if_neg enough]
      exact ⟨rfl, rfl⟩

theorem reads_readV4 {group : UInt32} {answer : TransactionBody} :
    (readV4 4 group).Reads taken answer ↔
      group = v4Group ∧ ∃ form : V4Form, form.layout = taken ∧ form.body = answer := by
  simp only [readV4, reads_expectGroup, recognizes_readTransparent.reads_bind,
    (recognizes_skip _ _).reads_bind, (recognizes_readEmptyPool _ _).reads_bind, reads_pure]
  refine and_congr_right fun same => ?_
  subst same
  constructor
  · rintro ⟨transparent, _, rfl, lock, _, rfl, expiry, _, rfl, sapling, _, rfl, _, _, rfl, _, _, rfl,
      _, _, rfl, rfl, rfl⟩
    exact ⟨⟨transparent, lock, expiry, sapling⟩, rfl, rfl⟩
  · rintro ⟨⟨transparent, lock, expiry, sapling⟩, rfl, rfl⟩
    exact ⟨transparent, _, rfl, lock, _, rfl, expiry, _, rfl, sapling, _, rfl, (), _, rfl, (), _, rfl,
      (), _, rfl, rfl, rfl⟩

theorem reads_readV5 (version : { version : UInt32 // 5 ≤ version.toNat ∧ version.toNat < 0x80000000 })
    {group : UInt32} {answer : TransactionBody} :
    (readV5 version group).Reads taken answer ↔
      group = v5Group ∧
        ∃ form : V5Form, form.version = version ∧ form.layout = taken ∧ form.body = answer := by
  simp only [readV5, reads_expectGroup, (recognizes_u32 _).reads_bind,
    recognizes_readTransparent.reads_bind, (recognizes_skip _ _).reads_bind,
    (recognizes_readEmptyPool _ _).reads_bind, recognizes_readOrchard.reads_bind, reads_pure]
  refine and_congr_right fun same => ?_
  subst same
  constructor
  · rintro ⟨branch, _, rfl, lock, _, rfl, expiry, _, rfl, transparent, _, rfl, _, _, rfl, _, _, rfl,
      bundle, _, rfl, rfl, rfl⟩
    exact ⟨⟨version, branch, lock, expiry, transparent, bundle⟩, rfl, rfl, rfl⟩
  · rintro ⟨⟨_, branch, lock, expiry, transparent, bundle⟩, rfl, rfl, rfl⟩
    exact ⟨branch, _, rfl, lock, _, rfl, expiry, _, rfl, transparent, _, rfl, (), _, rfl, (), _, rfl,
      bundle, _, rfl, rfl, rfl⟩

theorem recognizes : read.Recognizes TransactionForm.layout TransactionForm.body := by
  intro taken answer
  refine Reader.reads_bind.trans ?_
  simp only [reads_readVersion, (recognizes_u32 _).reads_bind, id]
  constructor
  · rintro ⟨_, version, _, rfl, ⟨rfl, least, low⟩, group, later, rfl, reads⟩
    split at reads
    next four =>
      subst four
      obtain ⟨rfl, form, rfl, rfl⟩ := reads_readV4.mp reads
      exact ⟨.v4 form, rfl, rfl⟩
    next other =>
      have more : 5 ≤ version.toNat := Nat.lt_of_le_of_ne least fun same => other (UInt32.toNat_inj.mp same.symm)
      obtain ⟨rfl, form, same, rfl, rfl⟩ := (reads_readV5 ⟨version, more, low⟩).mp reads
      obtain rfl : form.version.val = version := congrArg Subtype.val same
      exact ⟨.v5 form, rfl, rfl⟩
  · rintro ⟨form | form, rfl, rfl⟩
    case v4 =>
      exact ⟨_, 4, _, rfl, ⟨rfl, by decide, by decide⟩, _, _, rfl, reads_readV4.mpr ⟨rfl, form, rfl, rfl⟩⟩
    case v5 =>
      obtain ⟨more, low⟩ := form.version.property
      have other : form.version.val ≠ 4 := fun same => absurd (same ▸ more) (by decide)
      refine ⟨_, form.version, _, rfl, ⟨rfl, Nat.le_of_succ_le more, low⟩, v5Group, _, rfl, ?_⟩
      rw [if_neg other]
      exact (reads_readV5 _).mpr ⟨rfl, form, rfl, rfl, rfl⟩

end TransactionBody

namespace Transaction

theorem mapM_check {txid answer : Option Bytes} :
    txid.mapM Txid.check = .ok answer ↔ (∀ id ∈ txid, id.length = 32) ∧ txid = answer := by
  cases txid with
  | none => exact ⟨fun same => ⟨nofun, Except.ok.inj same⟩, fun both => congrArg Except.ok both.2⟩
  | some id =>
    have checked : (some id).mapM Txid.check = some <$> Txid.check id := rfl
    rw [checked, Txid.check]
    split
    next whole => simp [whole]
    next short => simp [short]

theorem reads_read {txid : Option Bytes} {taken : Layout} {tx : Transaction} :
    (read txid).Reads taken tx ↔
      (∀ id ∈ txid, id.length = 32) ∧
        ∃ form : TransactionForm, form.layout = taken ∧ form.transaction txid = tx := by
  simp only [read, Reader.reads_bind, reads_ofExcept, mapM_check]
  constructor
  · rintro ⟨_, _, _, rfl, ⟨rfl, whole, rfl⟩, _, ⟨raw, body⟩, _, rfl, reads, rfl, rfl⟩
    obtain ⟨rfl, parsed⟩ := reads_withBytes.mp reads
    obtain ⟨form, rfl, rfl⟩ := (TransactionBody.recognizes _ _).mp parsed
    exact ⟨whole, form, (List.append_nil _).symm, rfl⟩
  · rintro ⟨whole, form, rfl, rfl⟩
    have reads := (TransactionBody.recognizes _ _).mpr ⟨form, rfl, rfl⟩
    exact ⟨[], _, _, rfl, ⟨rfl, whole, rfl⟩, _, _, [], (List.append_nil _).symm,
      reads_withBytes.mpr ⟨rfl, reads⟩, rfl, rfl⟩

theorem form_of_readAlone {txids : Option (List Bytes)} {txVersion : Option UInt32} {taken : Layout}
    {tx : Transaction} (reads : (readAlone txids txVersion).Reads taken tx) :
    ∃ (form : TransactionForm) (txid : Option Bytes), form.layout = taken ∧ form.transaction txid = tx := by
  unfold readAlone at reads
  split at reads
  · exact reads.elim
  split at reads
  case h_3 => exact reads.elim
  all_goals
    obtain ⟨-, form, formed, same⟩ := reads_read.mp reads
    exact ⟨form, _, formed, same⟩

theorem recognizes_readAlone :
    (readAlone none none).Recognizes TransactionForm.layout fun form => form.transaction none :=
  fun _ _ => reads_read.trans (and_iff_right nofun)

/-- The input is parsed exactly where it begins with the encoding of a transaction. -/
theorem parse_ok_iff_encoded (data : Bytes) :
    (∀ tx rest, (readAlone none none).parse data = .ok (tx, rest) ↔
      ∃ form : TransactionForm, data = form.bytes ++ rest ∧ tx = form.transaction none) ∧
    ∀ (form other : TransactionForm) (rest left : Bytes),
      data = form.bytes ++ rest → data = other.bytes ++ left → form = other ∧ rest = left := by
  refine ⟨fun tx rest => recognizes_readAlone.parse_eq_ok_iff, ?_⟩
  intro form other rest left first second
  obtain ⟨rests, forms⟩ := TransactionForm.unambiguous (first.symm.trans second)
  exact ⟨forms, rests⟩

end Transaction

end CompactChain
