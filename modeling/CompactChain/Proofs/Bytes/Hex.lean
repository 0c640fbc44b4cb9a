import CompactChain.Bytes.Hex

set_option autoImplicit false

namespace CompactChain.Hex

def IsDigit (c : Char) : Prop :=
  ('0' ≤ c ∧ c ≤ '9') ∨ ('a' ≤ c ∧ c ≤ 'f') ∨ ('A' ≤ c ∧ c ≤ 'F')

instance : DecidablePred IsDigit := fun _ => instDecidableOr

def nibbles (bytes : Bytes) : List Nat :=
  bytes.flatMap fun byte => [byte.toNat / 16, byte.toNat % 16]

theorem nibbles_cons (byte : UInt8) (later : Bytes) :
    nibbles (byte :: later) = byte.toNat / 16 :: byte.toNat % 16 :: nibbles later :=
  rfl

theorem encode_eq_map (bytes : Bytes) : encode bytes = (nibbles bytes).map digit := by
  rw [encode, nibbles, List.map_flatMap]
  rfl

theorem length_nibbles (bytes : Bytes) : (nibbles bytes).length = 2 * bytes.length := by
  induction bytes with
  | nil => rfl
  | cons byte later ih =>
    rw [nibbles_cons, List.length_cons, List.length_cons, List.length_cons, ih]
    omega

theorem length_encode (bytes : Bytes) : (encode bytes).length = 2 * bytes.length := by
  rw [encode_eq_map, List.length_map, length_nibbles]

theorem nibbles_lt {bytes : Bytes} {value : Nat} (member : value ∈ nibbles bytes) : value < 16 := by
  obtain ⟨byte, -, among⟩ := List.mem_flatMap.mp member
  have small := byte.toNat_lt
  simp only [List.mem_cons, List.not_mem_nil, or_false] at among
  omega

theorem toNat_digit {value : Nat} (small : value < 16) :
    (digit value).toNat = if value < 10 then 48 + value else 87 + value := by
  revert value
  decide

theorem toNat_toLower (c : Char) :
    c.toLower.toNat = if 65 ≤ c.toNat ∧ c.toNat ≤ 90 then c.toNat + 32 else c.toNat := by
  by_cases upper : 65 ≤ c.toNat ∧ c.toNat ≤ 90
  next =>
    have shifted : c.toLower.val = c.val + 32 := congrArg Char.val (dif_pos upper)
    have sum : (c.val + 32).toNat = (c.toNat + 32) % 2 ^ 32 := UInt32.toNat_add c.val 32
    rw [Nat.mod_eq_of_lt (by omega), ← shifted] at sum
    rw [if_pos upper]
    exact sum
  next =>
    have kept : c.toLower = c := dif_neg upper
    rw [if_neg upper, kept]

theorem digitValue?_eq_some_iff {byte : UInt8} {value : Nat} :
    digitValue? byte = some value ↔ (48 ≤ byte.toNat ∧ byte.toNat ≤ 57 ∧ value + 48 = byte.toNat) ∨
      (97 ≤ byte.toNat ∧ byte.toNat ≤ 102 ∧ value + 87 = byte.toNat) ∨
      (65 ≤ byte.toNat ∧ byte.toNat ≤ 70 ∧ value + 55 = byte.toNat) := by
  simp only [digitValue?]
  split
  · rw [Option.some.injEq]
    omega
  split
  · rw [Option.some.injEq]
    omega
  split
  · rw [Option.some.injEq]
    omega
  · simp only [reduceCtorEq, false_iff]
    omega

theorem digitValue?_lt {byte : UInt8} {value : Nat} (read : digitValue? byte = some value) : value < 16 := by
  have ranges := digitValue?_eq_some_iff.mp read
  omega

theorem toLower_eq_digit_iff {c : Char} {value : Nat} (small : value < 16) :
    c.toLower = digit value ↔
      c.toNat < 128 ∧ digitValue? (UInt8.ofNat c.toNat) = some value := by
  rw [← Char.toNat_inj, toNat_toLower, toNat_digit small, digitValue?_eq_some_iff]
  by_cases ascii : c.toNat < 128
  next =>
    rw [UInt8.toNat_ofNat_of_lt' (Nat.lt_trans ascii (by decide))]
    split <;> split <;> omega
  next =>
    split <;> split <;> omega

theorem isDigit_iff_toNat {c : Char} : IsDigit c ↔ (48 ≤ c.toNat ∧ c.toNat ≤ 57) ∨
    (97 ≤ c.toNat ∧ c.toNat ≤ 102) ∨ (65 ≤ c.toNat ∧ c.toNat ≤ 70) :=
  Iff.rfl

theorem isDigit_iff {c : Char} : IsDigit c ↔ ∃ value < 16, c.toLower = digit value := by
  rw [isDigit_iff_toNat]
  constructor
  next =>
    intro among
    have ascii : c.toNat < 128 := by omega
    have whole : (UInt8.ofNat c.toNat).toNat = c.toNat :=
      UInt8.toNat_ofNat_of_lt' (Nat.lt_trans ascii (by decide))
    have known (value : Nat) : digitValue? (UInt8.ofNat c.toNat) = some value →
        ∃ value < 16, c.toLower = digit value := fun read =>
      ⟨value, digitValue?_lt read, (toLower_eq_digit_iff (digitValue?_lt read)).mpr ⟨ascii, read⟩⟩
    rcases among with decimal | lower | upper
    · exact known (c.toNat - 48) (digitValue?_eq_some_iff.mpr (by omega))
    · exact known (c.toNat - 87) (digitValue?_eq_some_iff.mpr (by omega))
    · exact known (c.toNat - 55) (digitValue?_eq_some_iff.mpr (by omega))
  next =>
    intro ⟨value, small, same⟩
    obtain ⟨ascii, read⟩ := (toLower_eq_digit_iff small).mp same
    rw [digitValue?_eq_some_iff, UInt8.toNat_ofNat_of_lt' (Nat.lt_trans ascii (by decide))] at read
    omega

example : IsDigit 'F' ∧ ¬ IsDigit 'g' := by decide

theorem utf8EncodeChar_of_ascii {c : Char} (ascii : c.toNat < 128) :
    String.utf8EncodeChar c = [UInt8.ofNat c.toNat] :=
  if_pos (Nat.le_of_lt_succ ascii)

theorem utf8EncodeChar_of_not_ascii {c : Char} (other : ¬ c.toNat < 128) :
    ∃ first more, String.utf8EncodeChar c = first :: more ∧ digitValue? first = none := by
  have strange (number : Nat) (high : 192 ≤ number) (small : number < 256) :
      digitValue? (UInt8.ofNat number) = none := by
    have whole : (UInt8.ofNat number).toNat = number := UInt8.toNat_ofNat_of_lt' small
    cases read : digitValue? (UInt8.ofNat number) with
    | none => rfl
    | some value =>
      rw [digitValue?_eq_some_iff, whole] at read
      omega
  have beyond : ¬ c.val.toNat ≤ 127 := fun low => other (Nat.lt_succ_of_le low)
  simp only [String.utf8EncodeChar, beyond, if_false]
  split
  · exact ⟨_, _, rfl, strange _ (by omega) (by omega)⟩
  split
  · exact ⟨_, _, rfl, strange _ (by omega) (by omega)⟩
  · exact ⟨_, _, rfl, strange _ (by omega) (by omega)⟩

theorem utf8_cons (c : Char) (rest : List Char) : utf8 (c :: rest) = String.utf8EncodeChar c ++ utf8 rest :=
  rfl

theorem map_digitValue?_utf8 {text : List Char} {values : List Nat} (small : ∀ value ∈ values, value < 16) :
    (utf8 text).map digitValue? = values.map some ↔ text.map Char.toLower = values.map digit := by
  induction text generalizing values with
  | nil => cases values <;> simp [utf8]
  | cons c rest ih =>
    rw [utf8_cons, List.map_append, List.map_cons]
    cases values with
    | nil =>
      by_cases ascii : c.toNat < 128
      next => simp [utf8EncodeChar_of_ascii ascii]
      next =>
        obtain ⟨first, more, spelled, -⟩ := utf8EncodeChar_of_not_ascii ascii
        simp [spelled]
    | cons value values =>
      have digits := toLower_eq_digit_iff (c := c) (small value List.mem_cons_self)
      have others := ih fun other member => small other (List.mem_cons_of_mem value member)
      rw [List.map_cons, List.map_cons, List.cons.injEq, digits, ← others]
      by_cases ascii : c.toNat < 128
      next => simp [utf8EncodeChar_of_ascii ascii, ascii]
      next =>
        obtain ⟨first, more, spelled, strange⟩ := utf8EncodeChar_of_not_ascii ascii
        simp [spelled, strange, ascii]

theorem nibbles_pair {high low : Nat} (highSmall : high < 16) (lowSmall : low < 16) :
    (UInt8.ofNat (16 * high + low)).toNat / 16 = high ∧ (UInt8.ofNat (16 * high + low)).toNat % 16 = low := by
  have small : 16 * high + low < 2 ^ 8 := by omega
  rw [UInt8.toNat_ofNat_of_lt' small]
  omega

theorem decodePairs_eq_ok_iff {position : Nat} {read input bytes : Bytes} (even : input.length % 2 ≠ 1) :
    decodePairs position read input = .ok bytes ↔
      ∃ later, bytes = read.reverse ++ later ∧ input.map digitValue? = (nibbles later).map some := by
  fun_induction decodePairs position read input with
  | case1 position read high low rest strange =>
    simp only [reduceCtorEq, List.map_cons, strange, false_iff, not_exists, not_and]
    intro later _ spelled
    cases later <;> simp [nibbles] at spelled
  | case2 position read high low rest first strange =>
    simp only [reduceCtorEq, List.map_cons, strange, false_iff, not_exists, not_and]
    intro later _ spelled
    cases later <;> simp [nibbles] at spelled
  | case3 position read high low rest h l lowRead highRead ih =>
    obtain ⟨highValue, lowValue⟩ := nibbles_pair (digitValue?_lt highRead) (digitValue?_lt lowRead)
    have fewer : rest.length % 2 ≠ 1 := by
      rw [List.length_cons, List.length_cons] at even
      omega
    rw [ih fewer]
    simp only [List.map_cons, highRead, lowRead, List.reverse_cons, List.append_assoc, List.singleton_append]
    constructor
    next =>
      intro ⟨later, same, spelled⟩
      refine ⟨_ :: later, same, ?_⟩
      rw [nibbles_cons, highValue, lowValue, spelled]
      rfl
    next =>
      intro ⟨later, same, spelled⟩
      cases later with
      | nil => contradiction
      | cons byte later =>
        simp only [nibbles_cons, List.map_cons, List.cons.injEq, Option.some.injEq] at spelled
        obtain ⟨rfl, rfl, spelled⟩ := spelled
        have whole : UInt8.ofNat (16 * (byte.toNat / 16) + byte.toNat % 16) = byte := by
          rw [Nat.div_add_mod, UInt8.ofNat_toNat]
        exact ⟨later, by rw [whole, same], spelled⟩
  | case4 input position read single =>
    have none : input = [] := by
      cases input with
      | nil => rfl
      | cons byte rest =>
        cases rest with
        | nil => contradiction
        | cons low rest => exact absurd rfl (single byte low rest)
    rw [none]
    constructor
    next =>
      intro same
      exact ⟨[], by rw [List.append_nil, Except.ok.inj same], rfl⟩
    next =>
      intro ⟨later, same, spelled⟩
      have empty := congrArg List.length spelled
      rw [List.length_map, List.length_map, length_nibbles, List.length_nil] at empty
      rw [same, List.length_eq_zero_iff.mp (show later.length = 0 by omega), List.append_nil]

theorem decode_eq_ok_iff {text : List Char} {bytes : Bytes} :
    decode text = .ok bytes ↔ text.map Char.toLower = encode bytes := by
  rw [encode_eq_map, ← map_digitValue?_utf8 fun _ => nibbles_lt, decode]
  split
  next odd =>
    simp only [reduceCtorEq, false_iff]
    intro spelled
    have counted := congrArg List.length spelled
    rw [List.length_map, List.length_map, length_nibbles] at counted
    omega
  next even =>
    rw [decodePairs_eq_ok_iff even]
    constructor
    next =>
      intro ⟨later, same, spelled⟩
      rwa [same, List.reverse_nil, List.nil_append]
    next => exact fun spelled => ⟨bytes, rfl, spelled⟩

theorem map_toLower_encode (bytes : Bytes) : (encode bytes).map Char.toLower = encode bytes := by
  have lower : ∀ value < 16, (digit value).toLower = digit value := by decide
  rw [encode_eq_map, List.map_map]
  exact List.map_congr_left fun value member => lower value (nibbles_lt member)

theorem decode_encode (bytes : Bytes) : decode (encode bytes) = .ok bytes :=
  decode_eq_ok_iff.mpr (map_toLower_encode bytes)

theorem isDigit_of_spelled {text : List Char} {bytes : Bytes}
    (spelled : text.map Char.toLower = encode bytes) : ∀ c ∈ text, IsDigit c := by
  intro c member
  have among : c.toLower ∈ (nibbles bytes).map digit := by
    rw [← encode_eq_map, ← spelled]
    exact List.mem_map_of_mem member
  obtain ⟨value, known, same⟩ := List.mem_map.mp among
  exact isDigit_iff.mpr ⟨value, nibbles_lt known, same.symm⟩

theorem exists_spelled : (text : List Char) → text.length % 2 = 0 → (∀ c ∈ text, IsDigit c) →
    ∃ bytes, text.map Char.toLower = encode bytes
  | [], _, _ => ⟨[], rfl⟩
  | [_], odd, _ => by contradiction
  | high :: low :: rest, even, digits => by
    obtain ⟨h, highSmall, first⟩ := isDigit_iff.mp (digits high List.mem_cons_self)
    obtain ⟨l, lowSmall, second⟩ := isDigit_iff.mp (digits low (List.mem_cons_of_mem _ List.mem_cons_self))
    obtain ⟨highValue, lowValue⟩ := nibbles_pair highSmall lowSmall
    have fewer : rest.length % 2 = 0 := by
      rw [List.length_cons, List.length_cons] at even
      omega
    obtain ⟨later, spelled⟩ := exists_spelled rest fewer fun c member =>
      digits c (List.mem_cons_of_mem _ (List.mem_cons_of_mem _ member))
    refine ⟨UInt8.ofNat (16 * h + l) :: later, ?_⟩
    rw [encode_eq_map] at spelled ⊢
    simp only [nibbles_cons, highValue, lowValue, List.map_cons, first, second, spelled]

end CompactChain.Hex
