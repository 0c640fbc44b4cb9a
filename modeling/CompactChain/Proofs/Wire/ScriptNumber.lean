import CompactChain.Proofs.Wire.Forms
import CompactChain.Wire.ScriptNumber
import Mathlib.Data.List.Induction
import Mathlib.Tactic.IntervalCases

set_option autoImplicit false

namespace CompactChain

theorem LittleEndian.toNat_append (front back : Bytes) :
    toNat (front ++ back) = toNat front + 256 ^ front.length * toNat back := by
  induction front with
  | nil => simp [toNat]
  | cons byte front ih =>
    simp only [List.cons_append, toNat, ih, List.length_cons, Nat.pow_succ]
    rw [Nat.mul_add, Nat.mul_comm (256 ^ front.length) 256, Nat.mul_assoc, Nat.add_assoc]

namespace ScriptNumber

def signWeight (count : Nat) : Nat :=
  1 <<< (8 * count - 1)

theorem two_mul_signWeight {count : Nat} (some : count ≠ 0) : 2 * signWeight count = 256 ^ count := by
  have bits : 8 * count = (8 * count - 1) + 1 := by omega
  have whole : 256 ^ count = 2 ^ (8 * count) := by rw [Nat.pow_mul]
  rw [whole, bits, signWeight, Nat.one_shiftLeft, Nat.pow_succ, Nat.mul_comm]

theorem top_bit_iff (bytes : Bytes) :
    256 ^ bytes.length ≤ 2 * LittleEndian.toNat bytes ↔ 128 ≤ (bytes.reverse.headD 0).toNat := by
  cases bytes using List.reverseRecOn with
  | nil => decide
  | append_singleton front last =>
    have low := LittleEndian.toNat_lt front
    simp only [LittleEndian.toNat_append, LittleEndian.toNat, List.length_append, List.length_singleton,
      Nat.pow_succ, List.reverse_append, List.reverse_singleton, List.singleton_append, List.headD_cons,
      Nat.mul_zero, Nat.add_zero]
    constructor
    next =>
      intro high
      by_contra small
      have : 256 ^ front.length * last.toNat ≤ 256 ^ front.length * 127 :=
        Nat.mul_le_mul_left _ (by omega)
      omega
    next =>
      intro high
      have : 256 ^ front.length * 128 ≤ 256 ^ front.length * last.toNat := Nat.mul_le_mul_left _ high
      omega

theorem magnitude_append (front : Bytes) (last : UInt8) :
    magnitude (front ++ [last]) =
      LittleEndian.toNat front + 256 ^ front.length * (last.toNat % 128) := by
  have low := LittleEndian.toNat_lt front
  have weight : signWeight (front.length + 1) = 256 ^ front.length * 128 := by
    have doubled := two_mul_signWeight (Nat.add_one_ne_zero front.length)
    rw [Nat.pow_succ] at doubled
    omega
  have below : LittleEndian.toNat front + 256 ^ front.length * (last.toNat % 128) <
      256 ^ front.length * 128 := by
    have : 256 ^ front.length * (last.toNat % 128) ≤ 256 ^ front.length * 127 :=
      Nat.mul_le_mul_left _ (by omega)
    omega
  have split : LittleEndian.toNat (front ++ [last]) =
      LittleEndian.toNat front + 256 ^ front.length * (last.toNat % 128) +
        256 ^ front.length * 128 * (last.toNat / 128) := by
    rw [LittleEndian.toNat_append, Nat.mul_assoc, Nat.add_assoc, ← Nat.mul_add, Nat.mod_add_div]
    rfl
  change LittleEndian.toNat (front ++ [last]) % signWeight (front ++ [last]).length = _
  rw [List.length_append, List.length_singleton, weight, split, Nat.add_mul_mod_self_left,
    Nat.mod_eq_of_lt below]

-- One byte fewer would leave no room for the sign.
theorem isMinimal_iff (bytes : Bytes) :
    isMinimal bytes ↔ 256 ^ (bytes.length - 1) ≤ 2 * magnitude bytes := by
  cases bytes using List.reverseRecOn with
  | nil => decide
  | append_singleton front last =>
    have top := top_bit_iff front
    simp only [isMinimal, List.reverse_append, List.reverse_singleton, List.singleton_append,
      Bool.or_eq_true, decide_eq_true_eq, magnitude_append, List.length_append,
      List.length_singleton, Nat.add_sub_cancel, ge_iff_le]
    by_cases alone : last.toNat % 128 = 0
    next => simp [alone, top]
    next =>
      have : 256 ^ front.length * 1 ≤ 256 ^ front.length * (last.toNat % 128) :=
        Nat.mul_le_mul_left _ (by omega)
      simp only [alone, ne_eq, not_false_eq_true, true_or, true_iff]
      omega

theorem toNat_eq_iff {bytes : Bytes} {size : Nat} {negative : Bool} (some : bytes ≠ []) :
    magnitude bytes = size ∧ isNegative bytes = negative ↔
      size < signWeight bytes.length ∧
        LittleEndian.toNat bytes = size + if negative then signWeight bytes.length else 0 := by
  have doubled := two_mul_signWeight fun none => some (List.length_eq_zero_iff.mp none)
  have fits := LittleEndian.toNat_lt bytes
  change LittleEndian.toNat bytes % signWeight bytes.length = size ∧
    decide (signWeight bytes.length ≤ LittleEndian.toNat bytes) = negative ↔ _
  generalize signWeight bytes.length = weight at *
  generalize LittleEndian.toNat bytes = whole at *
  by_cases high : weight ≤ whole
  next =>
    have rest : whole % weight = whole - weight := by
      rw [Nat.mod_eq_sub_mod high, Nat.mod_eq_of_lt (by omega)]
    cases negative <;> simp [high, rest] <;> omega
  next =>
    have rest : whole % weight = whole := Nat.mod_eq_of_lt (by omega)
    cases negative <;> simp [high, rest] <;> omega

def signed (count : Nat) (value : Int) : Bytes :=
  LittleEndian.ofNat count (value.natAbs + if value < 0 then signWeight count else 0)

theorem two_mul_magnitude_lt (bytes : Bytes) : 2 * magnitude bytes < 256 ^ bytes.length := by
  by_cases none : bytes = []
  next =>
    rw [none]
    decide
  next =>
    have doubled := two_mul_signWeight fun empty => none (List.length_eq_zero_iff.mp empty)
    have least : 0 < 256 ^ bytes.length := Nat.pow_pos (by decide)
    have positive : 0 < signWeight bytes.length := by omega
    have below : magnitude bytes < signWeight bytes.length := Nat.mod_lt _ positive
    omega

theorem parts_signed {count : Nat} {value : Int} (some : count ≠ 0)
    (fits : 2 * value.natAbs < 256 ^ count) :
    magnitude (signed count value) = value.natAbs ∧
      isNegative (signed count value) = decide (value < 0) := by
  have counted : (signed count value).length = count := LittleEndian.length_ofNat _ _
  have doubled := two_mul_signWeight some
  have room : (value.natAbs + if value < 0 then signWeight count else 0) < 256 ^ count := by
    split <;> omega
  have whole : LittleEndian.toNat (signed count value) =
      value.natAbs + if value < 0 then signWeight count else 0 := LittleEndian.toNat_ofNat room
  have nonempty : signed count value ≠ [] := by
    intro none
    rw [none] at counted
    exact some counted.symm
  refine (toNat_eq_iff nonempty).mpr ?_
  rw [counted]
  exact ⟨by omega, by simpa using whole⟩

theorem decode?_eq_some_iff {bytes : Bytes} {value : Int} :
    decode? bytes = some value ↔
      256 ^ (bytes.length - 1) ≤ 2 * value.natAbs ∧ 2 * value.natAbs < 256 ^ bytes.length ∧
        bytes = signed bytes.length value := by
  by_cases none : bytes = []
  next =>
    subst none
    simp [decode?, isMinimal]
    omega
  have counted : bytes.length ≠ 0 := fun same => none (List.length_eq_zero_iff.mp same)
  have doubled := two_mul_signWeight counted
  have positive : 0 < 256 ^ (bytes.length - 1) := Nat.pow_pos (by decide)
  rw [decode?]
  constructor
  next =>
    intro decoded
    split at decoded
    next least =>
      have least := (isMinimal_iff bytes).mp least
      obtain ⟨below, whole⟩ := (toNat_eq_iff none).mp ⟨rfl, rfl⟩
      have size : value.natAbs = magnitude bytes := by
        rw [← Option.some.inj decoded]
        split <;> omega
      have sign : isNegative bytes ↔ value < 0 := by
        rw [← Option.some.inj decoded]
        split
        next negative => exact iff_of_true negative (by omega)
        next negative => exact iff_of_false negative (by omega)
      refine ⟨by omega, by omega, ?_⟩
      simp only [sign, ← size] at whole
      rw [signed, ← whole, LittleEndian.ofNat_toNat]
    · contradiction
  next =>
    rintro ⟨least, below, spelled⟩
    have parts := parts_signed counted below
    rw [← spelled] at parts
    obtain ⟨size, sign⟩ := parts
    rw [if_pos ((isMinimal_iff bytes).mpr (by omega)), size, sign]
    simp only [decide_eq_true_eq, Option.some.injEq]
    split <;> omega

theorem width_eq_iff {size count : Nat} (some : size ≠ 0) :
    width size = count ↔ count ≠ 0 ∧ 256 ^ (count - 1) ≤ 2 * size ∧ 2 * size < 256 ^ count := by
  have low : 2 ^ (size.log2 + 1) ≤ 2 * size := by
    have := Nat.log2_self_le some
    rw [Nat.pow_succ]
    omega
  have high : 2 * size < 2 ^ (size.log2 + 2) := by
    have := Nat.lt_log2_self (n := size)
    rw [Nat.pow_succ]
    omega
  have counted : width size = (size.log2 + 1) / 8 + 1 := by
    unfold width
    split <;> omega
  have bits (count : Nat) : 256 ^ count = 2 ^ (8 * count) := by rw [Nat.pow_mul]
  rw [counted, bits, bits]
  constructor
  next =>
    rintro rfl
    refine ⟨by omega, ?_, ?_⟩
    · exact Nat.le_trans (Nat.pow_le_pow_right (by decide) (by omega)) low
    · exact Nat.lt_of_lt_of_le high (Nat.pow_le_pow_right (by decide) (by omega))
  next =>
    rintro ⟨some, least, below⟩
    have := (Nat.pow_lt_pow_iff_right (a := 2) (by decide)).mp (Nat.lt_of_le_of_lt least high)
    have := (Nat.pow_lt_pow_iff_right (a := 2) (by decide)).mp (Nat.lt_of_le_of_lt low below)
    omega

/-- The scripts that stand for a number: its shortest push, or also a push of one byte where the number
has an opcode of its own. -/
inductive Spells : Bytes → Int → Prop where
  | shortest (value : Int) (fits : value.natAbs < 2 ^ 63) : Spells (write value) value
  | pushedNegative : Spells [0x01, 0x81] (-1)
  | pushed (value : Nat) (least : 1 ≤ value) (most : value ≤ 16) :
    Spells [0x01, UInt8.ofNat value] value

theorem write_of_large {value : Int} (large : value < -1 ∨ 16 < value) :
    write value = UInt8.ofNat (width value.natAbs) :: signed (width value.natAbs) value := by
  rw [write, if_neg (by omega), if_neg (by omega), if_neg (by omega)]
  rfl

-- A push of one byte holds what an opcode stands for, or else the push is the shortest one.
theorem spells_of_decode? {bytes : Bytes} {value : Int} (short : bytes.length ≤ 8)
    (decoded : decode? bytes = some value) : Spells (UInt8.ofNat bytes.length :: bytes) value := by
  obtain ⟨least, below, spelled⟩ := decode?_eq_some_iff.mp decoded
  have positive : 0 < 256 ^ (bytes.length - 1) := Nat.pow_pos (by decide)
  have nonempty : bytes.length ≠ 0 := by
    intro none
    rw [none] at least below
    omega
  have fits : value.natAbs < 2 ^ 63 := by
    have : 256 ^ bytes.length ≤ 256 ^ 8 := Nat.pow_le_pow_right (by decide) short
    omega
  have counted : width value.natAbs = bytes.length :=
    (width_eq_iff (by omega)).mpr ⟨nonempty, least, below⟩
  by_cases large : value < -1 ∨ 16 < value
  next =>
    have shortest := Spells.shortest value fits
    rwa [write_of_large large, counted, ← spelled] at shortest
  next =>
    have single : bytes.length = 1 := by
      by_contra more
      have : 256 ^ 1 ≤ 256 ^ (bytes.length - 1) := Nat.pow_le_pow_right (by decide) (by omega)
      omega
    rw [single] at spelled ⊢
    rw [spelled]
    by_cases negative : value < 0
    next =>
      obtain rfl : value = -1 := by omega
      exact .pushedNegative
    next =>
      obtain ⟨value, rfl⟩ := Int.eq_ofNat_of_zero_le (Int.not_lt.mp negative)
      have pushed := Spells.pushed value (by omega) (by omega)
      simpa [signed, LittleEndian.ofNat, negative] using pushed

theorem decode?_signed {value : Int} (some : value.natAbs ≠ 0) :
    decode? (signed (width value.natAbs) value) = .some value := by
  obtain ⟨_, least, below⟩ := (width_eq_iff some).mp rfl
  rw [decode?_eq_some_iff, signed, LittleEndian.length_ofNat]
  exact ⟨least, below, rfl⟩

variable {field : Field} {taken : Layout} {value : Int}

theorem reads_push {bytes : Bytes} {count : Nat} (some : 0 < count) (short : count ≤ 8)
    (counted : bytes.length = count) (decoded : decode? bytes = .some value) :
    (read field).Reads (.field field (UInt8.ofNat count :: bytes)) value := by
  have opcode : (UInt8.ofNat count).toNat = count :=
    UInt8.toNat_ofNat_of_lt' (Nat.lt_of_le_of_lt short (by decide))
  simp only [read, (Reader.recognizes_u8 field).reads_bind, id]
  refine ⟨UInt8.ofNat count, .field field bytes, rfl, ?_⟩
  rw [opcode, if_neg (by omega), if_neg (by omega), if_neg (by omega), if_pos short]
  refine (Reader.recognizes_bytes _ field).reads_bind.mpr
    ⟨⟨bytes, counted⟩, [], (List.append_nil _).symm, ?_⟩
  simp only [decoded]
  exact ⟨rfl, rfl⟩

theorem reads_opcode (least : -1 ≤ value) (most : value ≤ 16) :
    (read field).Reads (.field field (write value)) value := by
  have single : (write value).length = 1 := by interval_cases value <;> rfl
  refine ⟨write value, [], single, (List.append_nil _).symm, ?_⟩
  interval_cases value <;> exact ⟨rfl, rfl⟩

theorem reads_write (fits : value.natAbs < 2 ^ 63) :
    (read field).Reads (.field field (write value)) value := by
  by_cases large : value < -1 ∨ 16 < value
  next =>
    have some : value.natAbs ≠ 0 := by omega
    obtain ⟨nonempty, least, _⟩ := (width_eq_iff some).mp rfl
    have short : width value.natAbs ≤ 8 := by
      by_contra more
      have : 256 ^ 8 ≤ 256 ^ (width value.natAbs - 1) := Nat.pow_le_pow_right (by decide) (by omega)
      omega
    rw [write_of_large large]
    exact reads_push (Nat.pos_of_ne_zero nonempty) short (LittleEndian.length_ofNat _ _)
      (decode?_signed some)
  next => exact reads_opcode (by omega) (by omega)

theorem reads_read :
    (read field).Reads taken value ↔ ∃ code, Spells code value ∧ taken = .field field code := by
  constructor
  next =>
    simp only [read, (Reader.recognizes_u8 field).reads_bind, id]
    rintro ⟨opcode, later, rfl, reads⟩
    split at reads
    next zero =>
      obtain ⟨rfl, rfl⟩ := reads
      obtain rfl : opcode = 0 := UInt8.toNat_inj.mp zero
      exact ⟨write 0, .shortest 0 (by decide), rfl⟩
    split at reads
    next negative =>
      obtain ⟨rfl, rfl⟩ := reads
      obtain rfl : opcode = 0x4f := UInt8.toNat_inj.mp negative
      exact ⟨write (-1), .shortest (-1) (by decide), rfl⟩
    split at reads
    next small =>
      obtain ⟨rfl, rfl⟩ := reads
      refine ⟨_, .shortest ((opcode.toNat : Int) - 0x50) (by omega), ?_⟩
      have whole : 0x50 + ((opcode.toNat : Int) - 0x50).toNat = opcode.toNat := by omega
      rw [write, if_neg (by omega), if_neg (by omega), if_pos (by omega), whole, UInt8.ofNat_toNat,
        List.append_nil]
    split at reads
    next short =>
      obtain ⟨⟨bytes, counted⟩, later, rfl, answered⟩ :=
        (Reader.recognizes_bytes _ field).reads_bind.mp reads
      split at answered
      next decoded =>
        obtain ⟨rfl, rfl⟩ := answered
        refine ⟨_, spells_of_decode? (Nat.le_trans (Nat.le_of_eq counted) short) decoded, ?_⟩
        rw [counted, UInt8.ofNat_toNat, List.append_nil]
        rfl
      · exact answered.elim
    · exact reads.elim
  next =>
    rintro ⟨code, spells, rfl⟩
    cases spells with
    | shortest _ fits => exact reads_write fits
    | pushedNegative =>
      have decoded : decode? [0x81] = some (-1) := by decide
      exact reads_push (by decide) (by decide) rfl decoded
    | pushed value least most =>
      have decoded : decode? [UInt8.ofNat value] = some (value : Int) := by
        interval_cases value <;> decide
      exact reads_push (by decide) (by decide) rfl decoded

theorem exists_reads_iff {data rest : Bytes} :
    (∃ taken, (read field).Reads taken value ∧ data = Layout.bytes taken ++ rest) ↔
      ∃ code, data = code ++ rest ∧ Spells code value := by
  constructor
  next =>
    intro ⟨taken, reads, spelled⟩
    obtain ⟨code, spells, rfl⟩ := reads_read.mp reads
    exact ⟨code, by rwa [Layout.bytes_field] at spelled, spells⟩
  next =>
    intro ⟨code, spelled, spells⟩
    exact ⟨.field field code, reads_read.mpr ⟨code, spells, rfl⟩, by rwa [Layout.bytes_field]⟩

theorem parse_eq_ok_iff {data rest : Bytes} :
    (read field).parse data = .ok (value, rest) ↔ ∃ code, data = code ++ rest ∧ Spells code value :=
  Reader.parse_eq_ok_iff.trans exists_reads_iff

theorem run_eq_ok_iff {script : Bytes} :
    ((read field).run script).1 = .ok value ↔ ∃ code tail, script = code ++ tail ∧ Spells code value := by
  constructor
  next =>
    intro answered
    obtain ⟨code, spelled, spells⟩ := exists_reads_iff.mp (Reader.run_eq_ok_iff.mp (Prod.ext answered rfl))
    exact ⟨code, _, spelled, spells⟩
  next =>
    intro ⟨code, tail, spelled, spells⟩
    rw [Reader.run_eq_ok_iff.mpr (exists_reads_iff.mpr ⟨code, spelled, spells⟩)]

end ScriptNumber

end CompactChain
