import CompactChain.Proofs.Wire.Guarded
import Mathlib.Data.Nat.Bitwise

set_option autoImplicit false

namespace CompactChain.ScriptNumber

def sizeBytes (size : Nat) : Bytes :=
  if size = 0 then [] else UInt8.ofNat size :: sizeBytes (size / 256)
termination_by size

def putSign (negative : Bool) (bytes : Bytes) : Bytes :=
  let sign : UInt8 := if negative then 0x80 else 0x00
  match bytes.getLast? with
  | none => bytes
  | some last =>
    if last &&& 0x80 ≠ 0 then bytes ++ [sign] else bytes.dropLast ++ [last ||| sign]

def script (value : Int) : Bytes :=
  if value = 0 then [0x00]
  else if value = -1 then [0x4f]
  else if 1 ≤ value ∧ value ≤ 16 then [UInt8.ofNat (0x50 + value.toNat)]
  else
    let bytes := putSign (value < 0) (sizeBytes value.natAbs)
    UInt8.ofNat bytes.length :: bytes

def number (bytes : Bytes) : Int :=
  if isNegative bytes then - (magnitude bytes : Int) else magnitude bytes

theorem toNat_sizeBytes (size : Nat) : LittleEndian.toNat (sizeBytes size) = size := by
  induction size using Nat.strongRecOn with
  | ind size ih =>
    rw [sizeBytes]
    split
    next zero => rw [zero, LittleEndian.toNat]
    next some =>
      rw [LittleEndian.toNat, ih _ (Nat.div_lt_self (Nat.pos_of_ne_zero some) (by decide)),
        UInt8.toNat_ofNat', Nat.mod_add_div]

theorem length_sizeBytes_le {size : Nat} (some : size ≠ 0) :
    sizeBytes size ≠ [] ∧ 256 ^ ((sizeBytes size).length - 1) ≤ size := by
  induction size using Nat.strongRecOn with
  | ind size ih =>
    rw [sizeBytes, if_neg some]
    refine ⟨List.cons_ne_nil _ _, ?_⟩
    rw [List.length_cons, Nat.add_sub_cancel]
    by_cases single : size / 256 = 0
    next =>
      rw [single, sizeBytes, if_pos rfl]
      exact Nat.pos_of_ne_zero some
    next =>
      obtain ⟨nonempty, least⟩ := ih _ (Nat.div_lt_self (Nat.pos_of_ne_zero some) (by decide)) single
      have counted : 0 < (sizeBytes (size / 256)).length := List.length_pos_of_ne_nil nonempty
      have weight := Nat.pow_pred_mul (x := 256) counted
      omega

theorem top_bit_taken_iff (last : UInt8) : last &&& 0x80 ≠ 0 ↔ 128 ≤ last.toNat := by
  have small := last.toNat_lt
  have bit : (last &&& 0x80).toNat = (last.toNat.testBit 7).toNat * 128 := by
    rw [UInt8.toNat_and]
    exact Nat.and_two_pow last.toNat 7
  have taken : last.toNat.testBit 7 = decide (128 ≤ last.toNat) := by
    rw [Nat.testBit_eq_decide_div_mod_eq]
    exact decide_eq_decide.mpr (by omega)
  rw [ne_eq, ← UInt8.toNat_inj, bit, taken]
  by_cases high : 128 ≤ last.toNat <;> simp [high]

theorem toNat_or_sign {last : UInt8} (free : last.toNat < 128) (negative : Bool) :
    (last ||| if negative then 0x80 else 0x00).toNat = last.toNat + if negative then 128 else 0 := by
  cases negative with
  | false => simp
  | true =>
    have weight := Nat.two_pow_add_eq_or_of_lt (i := 7) free 1
    rw [if_pos rfl, if_pos rfl, UInt8.toNat_or, Nat.or_comm]
    simpa [Nat.add_comm] using weight.symm

theorem putSign_concat (negative : Bool) (front : Bytes) (last : UInt8) :
    putSign negative (front ++ [last]) =
      let sign : UInt8 := if negative then 0x80 else 0x00
      if last &&& 0x80 ≠ 0 then front ++ [last] ++ [sign] else front ++ [last ||| sign] := by
  rw [putSign, List.getLast?_concat, List.dropLast_concat]

theorem toNat_concat (front : Bytes) (last : UInt8) :
    LittleEndian.toNat (front ++ [last]) = LittleEndian.toNat front + 256 ^ front.length * last.toNat := by
  rw [LittleEndian.toNat_append]
  rfl

-- One byte more where the top bit is taken; either way the top bit is then that of the sign.
theorem putSign_parts {bytes : Bytes} (some : bytes ≠ []) (negative : Bool) :
    (putSign negative bytes).length =
        bytes.length + (if 256 ^ bytes.length ≤ 2 * LittleEndian.toNat bytes then 1 else 0) ∧
      LittleEndian.toNat (putSign negative bytes) =
        LittleEndian.toNat bytes + if negative then signWeight (putSign negative bytes).length else 0 := by
  have top := top_bit_iff bytes
  cases bytes using List.reverseRecOn with
  | nil => contradiction
  | append_singleton front last =>
    rw [List.reverse_append, List.reverse_singleton, List.singleton_append, List.headD_cons] at top
    have doubled (count : Nat) : 2 * signWeight (count + 1) = 256 ^ count * 256 := by
      rw [two_mul_signWeight count.succ_ne_zero, Nat.pow_succ]
    simp only [putSign_concat, top_bit_taken_iff, top]
    by_cases taken : 128 ≤ last.toNat
    next =>
      have weight := doubled (front ++ [last]).length
      have sign : (if negative then (0x80 : UInt8) else 0x00).toNat = if negative then 128 else 0 := by
        cases negative <;> rfl
      simp only [taken, if_true]
      rw [List.length_append, List.length_singleton, toNat_concat, sign]
      refine ⟨rfl, ?_⟩
      cases negative with
      | false => rfl
      | true =>
        simp only [if_true]
        omega
    next =>
      have weight := doubled front.length
      have sign := toNat_or_sign (Nat.lt_of_not_le taken) negative
      simp only [taken, if_false]
      rw [List.length_append, List.length_append, List.length_singleton, List.length_singleton,
        toNat_concat, toNat_concat, sign, Nat.mul_add]
      refine ⟨rfl, ?_⟩
      cases negative with
      | false => rfl
      | true =>
        simp only [if_true]
        omega

theorem putSign_sizeBytes {size : Nat} (some : size ≠ 0) (negative : Bool) :
    let bytes := putSign negative (sizeBytes size)
    bytes.length ≠ 0 ∧ 256 ^ (bytes.length - 1) ≤ 2 * size ∧ 2 * size < 256 ^ bytes.length ∧
      LittleEndian.toNat bytes = size + if negative then signWeight bytes.length else 0 := by
  obtain ⟨nonempty, least⟩ := length_sizeBytes_le some
  have counted : 0 < (sizeBytes size).length := List.length_pos_of_ne_nil nonempty
  have fits := LittleEndian.toNat_lt (sizeBytes size)
  obtain ⟨length, whole⟩ := putSign_parts nonempty negative
  rw [toNat_sizeBytes] at fits length whole
  refine ⟨by omega, ?_, ?_, whole⟩
  · rw [length]
    split
    next taken => exact taken
    next free =>
      rw [Nat.add_zero]
      omega
  · rw [length]
    split
    next taken =>
      rw [Nat.pow_succ]
      omega
    next free => exact Nat.lt_of_not_le free

theorem script_eq_write (value : Int) : script value = write value := by
  by_cases large : value < -1 ∨ 16 < value
  next =>
    have some : value.natAbs ≠ 0 := by omega
    obtain ⟨counted, least, below, whole⟩ := putSign_sizeBytes some (value < 0)
    rw [script, if_neg (by omega), if_neg (by omega), if_neg (by omega), write_of_large large]
    generalize putSign (value < 0) (sizeBytes value.natAbs) = bytes at *
    have same : width value.natAbs = bytes.length := (width_eq_iff some).mpr ⟨counted, least, below⟩
    simp only [decide_eq_true_eq] at whole
    rw [same, signed, ← whole, LittleEndian.ofNat_toNat]
  next =>
    obtain ⟨least, most⟩ := not_or.mp large
    have least := Int.not_lt.mp least
    have most := Int.not_lt.mp most
    interval_cases value <;> rfl

theorem natAbs_number (bytes : Bytes) : (number bytes).natAbs = magnitude bytes := by
  rw [number]
  split <;> omega

theorem number_signed {count : Nat} {value : Int} (fits : 2 * value.natAbs < 256 ^ count) :
    number (signed count value) = value := by
  by_cases none : count = 0
  next =>
    subst none
    obtain rfl : value = 0 := by omega
    rfl
  next =>
    obtain ⟨size, sign⟩ := parts_signed none fits
    rw [number, size, sign]
    simp only [decide_eq_true_eq]
    split <;> omega

theorem isMinimal_iff_shortest {bytes : Bytes} (some : bytes ≠ []) :
    isMinimal bytes ↔ ∀ shorter : Bytes, shorter.length < bytes.length → number shorter ≠ number bytes := by
  have counted := List.length_pos_of_ne_nil some
  have size := natAbs_number bytes
  rw [isMinimal_iff]
  constructor
  next =>
    intro least shorter less same
    have below := two_mul_magnitude_lt shorter
    have weight : 256 ^ shorter.length ≤ 256 ^ (bytes.length - 1) :=
      Nat.pow_le_pow_right (by decide) (by omega)
    rw [← natAbs_number, same] at below
    omega
  next =>
    intro shortest
    by_contra room
    have fits : 2 * (number bytes).natAbs < 256 ^ (bytes.length - 1) := by omega
    have less : (signed (bytes.length - 1) (number bytes)).length < bytes.length := by
      rw [signed, LittleEndian.length_ofNat]
      omega
    exact shortest _ less (number_signed fits)

variable {field : Field}

theorem parse_read_cons (field : Field) (opcode : UInt8) (rest : Bytes) :
    (read field).parse (opcode :: rest) = Reader.parse (
      if opcode.toNat = 0x00 then return 0
      else if opcode.toNat = 0x4f then return -1
      else if 0x51 ≤ opcode.toNat ∧ opcode.toNat ≤ 0x60 then return (opcode.toNat : Int) - 0x50
      else if opcode.toNat ≤ 8 then do
        let bytes ← Reader.bytes opcode.toNat field
        match decode? bytes with
        | some value => return value
        | none => .fail (.data (.nonMinimalNumber field))
      else .fail (.data (.unexpectedOpcode opcode field))) rest :=
  rfl

theorem parse_push {bytes : Bytes} (some : bytes ≠ []) (short : bytes.length ≤ 8) (tail : Bytes) :
    (read field).parse (UInt8.ofNat bytes.length :: (bytes ++ tail)) =
      if isMinimal bytes then .ok (number bytes, tail) else .error (.data (.nonMinimalNumber field)) := by
  have counted := List.length_pos_of_ne_nil some
  have opcode : (UInt8.ofNat bytes.length).toNat = bytes.length :=
    UInt8.toNat_ofNat_of_lt' (Nat.lt_of_le_of_lt short (by decide))
  have taken : (Reader.bytes bytes.length field).parse (bytes ++ tail) = .ok (bytes, tail) :=
    (Reader.recognizes_bytes _ field).parse_eq_ok_iff.mpr ⟨⟨bytes, rfl⟩, by rw [Layout.bytes_field], rfl⟩
  rw [parse_read_cons, opcode, if_neg (by omega), if_neg (by omega), if_neg (by omega), if_pos short]
  refine (Reader.parse_bind _ _ _).trans ?_
  rw [taken]
  by_cases minimal : isMinimal bytes <;> simp only [Except.bind, decode?, minimal] <;> rfl

/-- What is read as a number: its script, for a few small numbers one other push, and nothing else. Of the
pushes that stand for a number the shortest one is read, and no step goes out of range. -/
structure ReadsScripts (field : Field) : Prop where
  written : ∀ (value : Int) (tail : Bytes), -2 ^ 63 < value → value < 2 ^ 63 →
    (read field).parse (script value ++ tail) = .ok (value, tail)
  taken : ∀ data value rest, (read field).parse data = .ok (value, rest) →
    -2 ^ 63 < value ∧ value < 2 ^ 63 ∧ ∃ code, data = code ++ rest ∧
      (code = script value ∨ code = [0x01, 0x81] ∧ value = -1 ∨
        ∃ small : Nat, 1 ≤ small ∧ small ≤ 16 ∧ code = [0x01, UInt8.ofNat small] ∧ value = small)
  single : ∀ code other value tail left, 2 < code.length → 2 < other.length →
    (read field).parse (code ++ tail) = .ok (value, tail) →
    (read field).parse (other ++ left) = .ok (value, left) → code = other
  shortest : ∀ bytes tail, bytes ≠ [] → bytes.length ≤ 8 →
    (∀ shorter : Bytes, shorter.length < bytes.length → number shorter ≠ number bytes) →
    (read field).parse (UInt8.ofNat bytes.length :: (bytes ++ tail)) = .ok (number bytes, tail)
  padded : ∀ bytes tail, bytes.length ≤ 8 →
    (∃ shorter : Bytes, shorter.length < bytes.length ∧ number shorter = number bytes) →
    (read field).parse (UInt8.ofNat bytes.length :: (bytes ++ tail)) =
      .error (.data (.nonMinimalNumber field))
  zero : ∀ bytes tail, bytes ≠ [] → bytes.length ≤ 8 → magnitude bytes = 0 →
    (read field).parse (UInt8.ofNat bytes.length :: (bytes ++ tail)) =
      .error (.data (.nonMinimalNumber field))
  inRange : ∀ data : Bytes, data.length < Word.limit →
    (readGuarded field).parse data = .ofAnswer ((read field).parse data)

theorem Spells.eq_script_or {code : Bytes} {value : Int} (spells : Spells code value) :
    value.natAbs < 2 ^ 63 ∧
      (code = script value ∨ code = [0x01, 0x81] ∧ value = -1 ∨
        ∃ small : Nat, 1 ≤ small ∧ small ≤ 16 ∧ code = [0x01, UInt8.ofNat small] ∧ value = small) := by
  cases spells with
  | shortest _ fits => exact ⟨fits, .inl (script_eq_write value).symm⟩
  | pushedNegative => exact ⟨by decide, .inr (.inl ⟨rfl, rfl⟩)⟩
  | pushed small least most => exact ⟨by omega, .inr (.inr ⟨small, least, most, rfl, rfl⟩)⟩

theorem Spells.eq_script_of_long {code : Bytes} {value : Int} (spells : Spells code value)
    (long : 2 < code.length) : code = script value := by
  obtain ⟨-, written | ⟨pushed, -⟩ | ⟨small, -, -, pushed, -⟩⟩ := spells.eq_script_or
  · exact written
  · rw [pushed] at long
    contradiction
  · rw [pushed] at long
    contradiction

theorem spells_of_parse {code tail : Bytes} {value : Int}
    (parsed : (read field).parse (code ++ tail) = .ok (value, tail)) : Spells code value := by
  obtain ⟨same, spelled, spells⟩ := parse_eq_ok_iff.mp parsed
  rwa [List.append_cancel_right spelled]

theorem reads_scripts (field : Field) : ReadsScripts field where
  written value tail above below := by
    rw [script_eq_write]
    exact parse_eq_ok_iff.mpr ⟨_, rfl, .shortest value (by omega)⟩
  taken data value rest parsed := by
    obtain ⟨code, spelled, spells⟩ := parse_eq_ok_iff.mp parsed
    obtain ⟨fits, form⟩ := spells.eq_script_or
    exact ⟨by omega, by omega, code, spelled, form⟩
  single code other value tail left long also parsed again := by
    rw [(spells_of_parse parsed).eq_script_of_long long, (spells_of_parse again).eq_script_of_long also]
  shortest bytes tail some short least := by
    rw [parse_push some short, if_pos ((isMinimal_iff_shortest some).mpr least)]
  padded bytes tail short padded := by
    obtain ⟨shorter, less, same⟩ := padded
    have some : bytes ≠ [] := List.ne_nil_of_length_pos (Nat.zero_lt_of_lt less)
    rw [parse_push some short, if_neg]
    exact fun minimal => (isMinimal_iff_shortest some).mp minimal shorter less same
  zero bytes tail some short nothing := by
    rw [parse_push some short, if_neg]
    intro minimal
    have least := (isMinimal_iff bytes).mp minimal
    have positive : 0 < 256 ^ (bytes.length - 1) := Nat.pow_pos (by decide)
    omega
  inRange data small := Decoder.decodes_parse (follows_readGuarded field) data small

-- The greatest number fills eight bytes, and the sign of -128 needs a byte of its own. Five may be pushed as a
-- byte, but not with a zero behind it, and there is no zero with a sign.
theorem reads_scripts_at_bounds :
    let field := "coinbase height"
    let greatest : Bytes := [0x08, 0xff, 0xff, 0xff, 0xff, 0xff, 0xff, 0xff, 0x7f]
    greatest = script (2 ^ 63 - 1) ∧ (read field).parse (greatest ++ [7]) = .ok (2 ^ 63 - 1, [7]) ∧
      (readGuarded field).parse greatest = .ok (2 ^ 63 - 1, []) ∧
      [0x02, 0x80, 0x80] = script (-128) ∧ (read field).parse [0x02, 0x80, 0x80] = .ok (-128, []) ∧
      [0x01, 0x05] ≠ script 5 ∧ (read field).parse [0x01, 0x05] = .ok (5, []) ∧
      (read field).parse [0x02, 0x05, 0x00] = .error (.data (.nonMinimalNumber field)) ∧
      (read field).parse [0x01, 0x80] = .error (.data (.nonMinimalNumber field)) := by
  intro field greatest
  have reads := reads_scripts field
  have most : greatest = script (2 ^ 63 - 1) := by
    rw [script_eq_write]
    decide
  have below : [0x02, 0x80, 0x80] = script (-128) := by
    rw [script_eq_write]
    decide
  have five : [0x01, 0x05] ≠ script 5 := by
    rw [script_eq_write]
    decide
  have again := reads.written (2 ^ 63 - 1) [] (by decide) (by decide)
  have checked := reads.inRange greatest (by decide)
  rw [List.append_nil, ← most] at again
  rw [again] at checked
  refine ⟨most, ?_, checked, below, ?_, five, rfl, ?_, ?_⟩
  · rw [most]
    exact reads.written (2 ^ 63 - 1) [7] (by decide) (by decide)
  · rw [below, ← List.append_nil (script (-128))]
    exact reads.written (-128) [] (by decide) (by decide)
  · exact reads.padded [0x05, 0x00] [] (by decide) ⟨[0x05], by decide, by decide⟩
  · exact reads.zero [0x80] [] (by decide) (by decide) (by decide)

end CompactChain.ScriptNumber
