import CompactChain.Proofs.Wire.ScriptNumber
import CompactChain.Wire.Guarded

set_option autoImplicit false

namespace CompactChain

namespace Checked

variable {α β : Type}

instance : LawfulMonad Checked :=
  LawfulMonad.mk' Checked
    (fun checked => by cases checked <;> rfl)
    (fun _ _ => rfl)
    (fun checked _ _ => by cases checked <;> rfl)

theorem ofAnswer_eq_ok {answer : Except ParseError α} {value : α} (answered : ofAnswer answer = .ok value) :
    answer = .ok value := by
  cases answer with
  | error error => contradiction
  | ok other =>
    obtain rfl := Checked.ok.inj answered
    rfl

theorem mapM_ofAnswer {items : List α} {f : α → Checked β} {g : α → Except ParseError β}
    (each : ∀ item ∈ items, f item = .ofAnswer (g item)) : items.mapM f = .ofAnswer (items.mapM g) := by
  induction items with
  | nil => rfl
  | cons item later ih =>
    have rest := ih fun other member => each other (List.mem_cons_of_mem item member)
    rw [List.mapM_cons, List.mapM_cons, each item List.mem_cons_self, rest]
    cases g item with
    | error error => rfl
    | ok value => cases later.mapM g <;> rfl

end Checked

namespace Reader

variable {α β : Type}

theorem bind_done (reader : Reader α) : reader.bind done = reader := by
  induction reader with
  | done value => rfl
  | fail error => rfl
  | take count field next ih => exact congrArg (take count field) (funext ih)
  | reserve count width next ih => exact congrArg (reserve count width) ih

theorem map_fst_parse (reader : Reader α) (input : Bytes) :
    (reader.parse input).map Prod.fst = (reader.run input).1 := by
  rw [parse]
  rcases reader.run input with ⟨_ | value, left⟩ <;> rfl

theorem parse_bind (reader : Reader α) (f : α → Reader β) (input : Bytes) :
    (reader.bind f).parse input =
      (reader.parse input).bind fun (value, left) => (f value).parse left := by
  simp only [parse, run_bind]
  rcases reader.run input with ⟨_ | value, left⟩ <;> rfl

theorem suffix_of_parse {reader : Reader α} {input left : Bytes} {value : α}
    (parsed : reader.parse input = .ok (value, left)) : left <:+ input := by
  obtain ⟨taken, -, rfl⟩ := parse_eq_ok_iff.mp parsed
  exact List.suffix_append _ _

theorem run_withBytesAfter (reader : Reader α) (chunks : List Bytes) (input : Bytes) :
    (reader.withBytesAfter chunks).run input =
      match reader.run input with
      | (.ok value, left) =>
        (.ok (chunks.reverse.flatten ++ input.take (input.length - left.length), value), left)
      | (.error error, left) => (.error error, left) := by
  induction reader generalizing chunks input with
  | done value => simp [withBytesAfter, run]
  | fail error => rfl
  | take count field next ih =>
    rw [withBytesAfter, run, run]
    by_cases counted : (input.take count).length = count
    · simp only [counted, if_true, ih]
      cases ran : (next (input.take count)).run (input.drop count) with
      | mk result left =>
        cases result with
        | error error => rfl
        | ok value =>
          obtain ⟨taken, -, split⟩ := run_eq_ok_iff.mp ran
          have whole := congrArg List.length split
          rw [List.length_drop, List.length_append] at whole
          rw [List.length_take] at counted
          have parts : input.length - left.length = count + ((input.drop count).length - left.length) := by
            rw [List.length_drop]
            omega
          simp only [parts, List.take_add, List.reverse_cons, List.flatten_append, List.flatten_singleton,
            List.append_assoc]
    · simp only [counted, if_false]
  | reserve count width next ih => exact ih chunks input

theorem parse_withBytes (reader : Reader α) (input : Bytes) :
    reader.withBytes.parse input = (reader.parse input).map fun (value, left) =>
      ((input.take (input.length - left.length), value), left) := by
  rw [parse, withBytes, run_withBytesAfter, parse]
  rcases reader.run input with ⟨_ | value, left⟩ <;> rfl

end Reader

namespace Cursor

structure InRange (cursor : Cursor) : Prop where
  within : cursor.position ≤ cursor.data.length
  small : cursor.data.length < Word.limit

def before (cursor : Cursor) (left : Bytes) : Cursor :=
  ⟨cursor.data, cursor.data.length - left.length⟩

variable {cursor : Cursor} {left : Bytes}

theorem InRange.before (inRange : cursor.InRange) (left : Bytes) : (cursor.before left).InRange :=
  ⟨Nat.sub_le _ _, inRange.small⟩

theorem rest_before (suffix : left <:+ cursor.rest) : (cursor.before left).rest = left :=
  (List.suffix_iff_eq_drop.mp (suffix.trans (List.drop_suffix _ _))).symm

theorem length_rest (cursor : Cursor) : cursor.rest.length = cursor.data.length - cursor.position :=
  List.length_drop

theorem InRange.before_drop (inRange : cursor.InRange) {count : Nat} (enough : count ≤ cursor.rest.length) :
    cursor.before (cursor.rest.drop count) = ⟨cursor.data, cursor.position + count⟩ := by
  obtain ⟨within, -⟩ := inRange
  rw [length_rest] at enough
  simp only [Cursor.before, List.length_drop, length_rest, Cursor.mk.injEq, true_and]
  omega

theorem InRange.before_rest (inRange : cursor.InRange) : cursor.before cursor.rest = cursor :=
  inRange.before_drop (Nat.zero_le _)

theorem InRange.rest_small (inRange : cursor.InRange) : cursor.rest.length < Word.limit :=
  Nat.lt_of_le_of_lt (List.drop_suffix _ _).length_le inRange.small

theorem InRange.ofBytes {data : Bytes} (small : data.length < Word.limit) : (ofBytes data).InRange :=
  ⟨Nat.zero_le _, small⟩

end Cursor

namespace Guarded

variable {α β : Type}

def Follows (guarded : Guarded α) (reader : Reader α) : Prop :=
  ∀ cursor : Cursor, cursor.InRange → guarded cursor =
    .ofAnswer ((reader.parse cursor.rest).map fun (value, left) => (value, cursor.before left))

variable {guarded other : Guarded α} {reader plain : Reader α}

theorem follows_pure (value : α) : Follows (pure value) (pure value) := by
  intro cursor inRange
  change _ = Checked.ok (value, cursor.before cursor.rest)
  rw [inRange.before_rest]
  rfl

theorem follows_fail (error : ParseError) : Follows (fail error : Guarded α) (.fail error) :=
  fun _ _ => rfl

theorem follows_ofChecked {answer : Except ParseError α} :
    Follows (ofChecked (.ofAnswer answer)) (.ofExcept answer) := by
  cases answer with
  | error error => exact follows_fail error
  | ok value => exact follows_pure value

-- What follows needs only be right for the values that may be read.
theorem Follows.bind_of {f : α → Guarded β} {g : α → Reader β} (first : Follows guarded reader)
    (next : ∀ value, (∃ input left, reader.parse input = .ok (value, left)) → Follows (f value) (g value)) :
    Follows (guarded >>= f) (reader >>= g) := by
  intro cursor inRange
  change (guarded cursor).bind _ = .ofAnswer (((reader.bind g).parse cursor.rest).map _)
  rw [first cursor inRange, Reader.parse_bind]
  cases parsed : reader.parse cursor.rest with
  | error error => rfl
  | ok result =>
    obtain ⟨value, left⟩ := result
    have later := next value ⟨_, left, parsed⟩ _ (inRange.before left)
    rw [Cursor.rest_before (Reader.suffix_of_parse parsed)] at later
    exact later

theorem Follows.bind {f : α → Guarded β} {g : α → Reader β} (first : Follows guarded reader)
    (next : ∀ value, Follows (f value) (g value)) : Follows (guarded >>= f) (reader >>= g) :=
  first.bind_of fun value _ => next value

theorem Follows.ite {condition : Prop} [Decidable condition] (one : condition → Follows guarded reader)
    (two : ¬ condition → Follows other plain) :
    Follows (if condition then guarded else other) (if condition then reader else plain) := by
  split
  next holds => exact one holds
  next fails => exact two fails

theorem Follows.reserve (follows : Follows guarded reader) (count width : Nat) :
    Follows guarded (.reserve count width reader) :=
  follows

theorem step_bind {result : Except Overrun β} {value : β} (fits : result = .ok value)
    (f : β → Guarded α) (cursor : Cursor) : (step result >>= f) cursor = f value cursor := by
  rw [fits]
  rfl

theorem moveTo_bind {position : Nat} {cursor : Cursor} (within : position ≤ cursor.data.length)
    (f : Unit → Guarded α) : (moveTo position >>= f) cursor = f () ⟨cursor.data, position⟩ := by
  change Checked.bind (if position ≤ cursor.data.length then _ else _) _ = _
  rw [if_pos within]
  rfl

theorem Follows.step_bind {result : Except Overrun β} {value : β} {f : β → Guarded α}
    (fits : result = .ok value) (next : Follows (f value) reader) : Follows (step result >>= f) reader :=
  fun cursor inRange => (Guarded.step_bind fits f cursor).trans (next cursor inRange)

theorem slice_eq {data : Bytes} {start stop : Nat} (ordered : start ≤ stop) (within : stop ≤ data.length) :
    Bytes.slice data start stop = .ok ((data.drop start).take (stop - start)) :=
  if_pos ⟨ordered, within⟩

theorem follows_take (count : Nat) (field : Field) : Follows (take count field) (Reader.bytes count field) := by
  intro cursor inRange
  have taken : (cursor.rest.take count).length = min count cursor.rest.length := List.length_take
  change (if cursor.rest.length < count then fail (.truncated field)
    else step (Word.add cursor.position count) >>= fun stop => moveTo stop >>= fun _ =>
      step (Bytes.slice cursor.data cursor.position stop) >>= fun taken =>
        step (Bytes.copy count taken)) cursor = _
  split
  next short =>
    rw [Reader.bytes, Reader.parse, Reader.run, if_neg (by omega)]
    rfl
  next enough =>
    have counted : (cursor.rest.take count).length = count := by omega
    have after := inRange.before_drop (Nat.le_of_not_lt enough)
    -- the bytes asked for are there, so the position after them is one of the data
    have stop : cursor.position + count ≤ cursor.data.length := by
      have within := inRange.within
      rw [Cursor.length_rest] at enough
      omega
    have added : Word.add cursor.position count = .ok (cursor.position + count) :=
      if_pos (Nat.lt_of_le_of_lt stop inRange.small)
    have cut := slice_eq (Nat.le_add_right cursor.position count) stop
    rw [Nat.add_sub_cancel_left] at cut
    have copied : Bytes.copy count (cursor.rest.take count) = .ok (cursor.rest.take count) :=
      if_pos counted
    rw [step_bind added, moveTo_bind stop, step_bind cut, Reader.bytes, Reader.parse, Reader.run, if_pos counted]
    change step (Bytes.copy count (cursor.rest.take count)) _ = .ok (_, cursor.before _)
    rw [copied, after]
    rfl

theorem follows_ofReader (reader : Reader α) : Follows (ofReader reader) reader := by
  induction reader with
  | done value => exact follows_pure value
  | fail error => exact follows_fail error
  | take count field next ih => exact (follows_take count field).bind ih
  | reserve count width next ih => exact Follows.reserve ih count width

theorem follows_timesAfter (follows : Follows guarded reader) (items : List α) (count : Nat) :
    Follows (timesAfter items guarded count) (Reader.timesAfter items reader count) := by
  induction count generalizing items with
  | zero => exact follows_pure items.reverse
  | succ count ih => exact follows.bind fun value => ih (value :: items)

theorem follows_list (follows : Follows guarded reader) (count width : Nat) :
    Follows (times count guarded) (Reader.list count width reader) :=
  Follows.reserve (follows_timesAfter follows [] count) count width

theorem rest_eq {cursor : Cursor} (inRange : cursor.InRange) :
    rest cursor = .ok (cursor.rest, cursor) := by
  have whole : (cursor.data.drop cursor.position).take (cursor.data.length - cursor.position) =
      cursor.rest := List.take_of_length_le (Nat.le_of_eq List.length_drop)
  have cut := slice_eq inRange.within (Nat.le_refl _)
  rw [whole] at cut
  change step (Bytes.slice cursor.data (min cursor.position cursor.data.length) cursor.data.length) cursor = _
  rw [Nat.min_eq_left inRange.within, cut]
  rfl

theorem advanceTo_eq {cursor : Cursor} {left : Bytes} (suffix : left <:+ cursor.rest) :
    advanceTo left cursor = .ok ((), cursor.before left) := by
  have fits := (suffix.trans (List.drop_suffix _ _)).length_le
  have difference : Word.sub cursor.data.length left.length = .ok (cursor.data.length - left.length) :=
    if_pos fits
  change (step (Word.sub cursor.data.length left.length) >>= moveTo) cursor = _
  rw [step_bind difference]
  exact if_pos (Nat.sub_le _ _)

def Ends (guarded : Guarded (α × Bytes)) (reader : Reader α) : Prop :=
  ∀ cursor : Cursor, cursor.InRange →
    ((guarded cursor).bind fun (result, _) => pure result) = .ofAnswer (reader.parse cursor.rest)

theorem ends_rest (value : α) : Ends (rest >>= fun left => pure (value, left)) (pure value) := by
  intro cursor inRange
  change Checked.bind (Checked.bind (rest cursor) _) _ = _
  rw [rest_eq inRange]
  rfl

theorem Follows.ends {f : α → Guarded (β × Bytes)} {g : α → Reader β} (first : Follows guarded reader)
    (next : ∀ value, Ends (f value) (g value)) : Ends (guarded >>= f) (reader >>= g) := by
  intro cursor inRange
  change Checked.bind (Checked.bind (guarded cursor) _) _ = .ofAnswer ((reader.bind g).parse cursor.rest)
  rw [first cursor inRange, Reader.parse_bind]
  cases parsed : reader.parse cursor.rest with
  | error error => rfl
  | ok result =>
    obtain ⟨value, left⟩ := result
    have later := next value _ (inRange.before left)
    rw [Cursor.rest_before (Reader.suffix_of_parse parsed)] at later
    exact later

theorem Follows.start_eq (follows : Follows guarded reader) {data : Bytes} (small : data.length < Word.limit) :
    start guarded data = .ofAnswer (reader.run data).1 := by
  change Checked.bind (guarded (Cursor.ofBytes data)) _ = _
  rw [follows _ (.ofBytes small), ← Reader.map_fst_parse]
  change Checked.bind (.ofAnswer ((reader.parse data).map _)) _ = _
  cases reader.parse data <;> rfl

end Guarded

namespace Decoder

open Guarded (Follows Ends)

variable {α β : Type}

def Decodes (decoder : Decoder α) (reader : Reader α) : Prop :=
  ∀ data : Bytes, data.length < Word.limit → decoder data = .ofAnswer (reader.parse data)

variable {decoder : Decoder α} {guarded : Guarded α} {reader : Reader α}

theorem decodes_start {guarded : Guarded (α × Bytes)} (ends : Ends guarded reader) :
    Decodes guarded.start reader :=
  fun _ small => ends _ (.ofBytes small)

theorem decodes_parse (follows : Follows guarded reader) : Decodes guarded.parse reader := by
  have ends := follows.ends Guarded.ends_rest
  change Ends _ (reader.bind .done) at ends
  rw [Reader.bind_done] at ends
  exact decodes_start ends

theorem Decodes.hand (decodes : Decodes decoder reader) : Ends (.hand decoder) reader := by
  intro cursor inRange
  change Checked.bind (Checked.bind (Guarded.rest cursor) _) _ = _
  rw [Guarded.rest_eq inRange]
  change Checked.bind (Checked.bind (decoder cursor.rest) _) _ = _
  rw [decodes cursor.rest inRange.rest_small]
  cases reader.parse cursor.rest <;> rfl

theorem Decodes.nested (decodes : Decodes decoder reader) : Follows (.nested decoder) reader := by
  intro cursor inRange
  change Checked.bind (Checked.bind (Guarded.rest cursor) _) _ = _
  rw [Guarded.rest_eq inRange]
  change Checked.bind (Checked.bind (decoder cursor.rest) _) _ = _
  rw [decodes cursor.rest inRange.rest_small]
  cases parsed : reader.parse cursor.rest with
  | error error => rfl
  | ok result =>
    obtain ⟨value, left⟩ := result
    change Checked.bind (Guarded.advanceTo left cursor) _ = _
    rw [Guarded.advanceTo_eq (Reader.suffix_of_parse parsed)]
    rfl

theorem decodes_fail (error : ParseError) : Decodes (fail error : Decoder α) (.fail error) :=
  fun _ _ => rfl

theorem Decodes.map {f : α → β} {next : α → Reader β} (decodes : Decodes decoder reader)
    (same : ∀ value, next value = .done (f value)) : Decodes (decoder.map f) (reader >>= next) := by
  intro data small
  change Checked.bind (decoder data) _ = .ofAnswer ((reader.bind next).parse data)
  rw [decodes data small, Reader.parse_bind]
  cases reader.parse data with
  | error error => rfl
  | ok result =>
    change _ = Checked.ofAnswer ((next result.1).parse result.2)
    rw [same]
    rfl

theorem Decodes.withBytes (decodes : Decodes decoder reader) :
    Decodes decoder.withBytes reader.withBytes := by
  intro data small
  change Checked.bind (decoder data) _ = _
  rw [decodes data small, Reader.parse_withBytes]
  cases parsed : reader.parse data with
  | error error => rfl
  | ok result =>
    obtain ⟨value, left⟩ := result
    have shorter := (Reader.suffix_of_parse parsed).length_le
    have count : Word.sub data.length left.length = .ok (data.length - left.length) := if_pos shorter
    have cut := Guarded.slice_eq (Nat.zero_le _) (Nat.sub_le data.length left.length)
    change Checked.bind (.step (Word.sub data.length left.length)) _ = _
    rw [count]
    change Checked.bind (.step (Bytes.slice data 0 (data.length - left.length))) _ = _
    rw [cut]
    rfl

theorem Decodes.congr_if {condition : Prop} [Decidable condition] {other : Decoder α} {plain : Reader α}
    (one : Decodes decoder reader) (two : Decodes other plain) :
    Decodes (if condition then decoder else other) (if condition then reader else plain) := by
  split
  next => exact one
  next => exact two

end Decoder

namespace ScriptNumber

theorem shiftLeft_eq {bits index : Nat} (byte : bits < 256) (low : index < 8) :
    Word.shiftLeft bits (8 * index) = .ok (256 ^ index * bits) := by
  have shifted : bits <<< (8 * index) = 256 ^ index * bits := by
    rw [Nat.shiftLeft_eq, Nat.pow_mul, Nat.mul_comm]
  have fits : 256 ^ index * bits < Word.limit := by
    have most : 256 ^ index ≤ 256 ^ 7 := Nat.pow_le_pow_right (by decide) (by omega)
    have product := Nat.mul_le_mul most (Nat.le_of_lt_succ byte)
    exact Nat.lt_of_le_of_lt product (by decide)
  rw [Word.shiftLeft, if_pos (by omega), shifted, Nat.mod_eq_of_lt fits]

theorem or_eq_add {size index : Nat} (low : size < 256 ^ index) (bits : Nat) :
    size ||| 256 ^ index * bits = size + 256 ^ index * bits := by
  have weight : 256 ^ index = 2 ^ (8 * index) := by rw [Nat.pow_mul]
  rw [weight] at low ⊢
  rw [Nat.or_comm, ← Nat.two_pow_add_eq_or_of_lt low, Nat.add_comm]

theorem gather_cons {length index size : Nat} (byte : UInt8) (rest : Bytes) (within : index < length)
    (short : length ≤ 8) (low : size < 256 ^ index) :
    let bits := if index = length - 1 then byte.toNat % 128 else byte.toNat
    bits < 256 ∧ gather length index size (byte :: rest) =
      gather length (index + 1) (size + 256 ^ index * bits) rest := by
  intro bits
  have small : bits < 256 := by
    have byteSmall := byte.toNat_lt
    simp only [bits]
    split <;> omega
  have last : Word.sub length 1 = .ok (length - 1) := if_pos (by omega)
  have place : Word.mul 8 index = .ok (8 * index) := if_pos (by simp only [Word.limit]; omega)
  refine ⟨small, ?_⟩
  rw [gather, last, place]
  change (Word.shiftLeft bits (8 * index)).bind _ = _
  rw [shiftLeft_eq small (by omega), ← or_eq_add low]
  rfl

theorem magnitude_cons (byte : UInt8) (front : Bytes) (last : UInt8) :
    magnitude (byte :: front ++ [last]) = byte.toNat + 256 * magnitude (front ++ [last]) := by
  rw [magnitude_append, magnitude_append, LittleEndian.toNat, List.length_cons, Nat.pow_succ,
    Nat.mul_comm (256 ^ front.length) 256, Nat.mul_assoc, Nat.mul_add, Nat.add_assoc]

theorem gather_eq {length index size : Nat} (front : Bytes) (last : UInt8)
    (whole : index + front.length + 1 = length) (short : length ≤ 8) (low : size < 256 ^ index) :
    gather length index size (front ++ [last]) =
      .ok (size + 256 ^ index * magnitude (front ++ [last])) := by
  induction front generalizing index size with
  | nil =>
    rw [List.length_nil] at whole
    have step := (gather_cons last [] (by omega) short low).2
    rw [if_pos (by omega)] at step
    rw [magnitude_append]
    simpa [LittleEndian.toNat, gather] using step
  | cons byte front ih =>
    rw [List.length_cons] at whole
    obtain ⟨small, step⟩ := gather_cons byte (front ++ [last]) (show index < length by omega) short low
    rw [if_neg (by omega)] at small step
    have grown : size + 256 ^ index * byte.toNat < 256 ^ (index + 1) := by
      have most := Nat.mul_le_mul_left (256 ^ index) (Nat.le_of_lt_succ small)
      rw [Nat.pow_succ]
      omega
    rw [magnitude_cons, List.cons_append, step, ih (by omega) grown, Nat.pow_succ, Nat.mul_add,
      Nat.mul_assoc, Nat.add_assoc]

theorem magnitude_lt {bytes : Bytes} (short : bytes.length ≤ 8) :
    magnitude bytes < 0x8000000000000000 := by
  have below := two_mul_magnitude_lt bytes
  have most : 256 ^ bytes.length ≤ 256 ^ 8 := Nat.pow_le_pow_right (by decide) short
  omega

theorem isNegative_append (front : Bytes) (last : UInt8) :
    isNegative (front ++ [last]) = decide (128 ≤ last.toNat) := by
  have doubled : 2 * signWeight (front ++ [last]).length = _ := two_mul_signWeight (by simp)
  have top := top_bit_iff (front ++ [last])
  rw [← doubled, List.reverse_append] at top
  exact decide_eq_decide.mpr ((Nat.mul_le_mul_left_iff (by decide)).symm.trans top)

-- No push is too long: its size and its sign fit a signed word.
theorem decodeGuarded_eq {bytes : Bytes} (short : bytes.length ≤ 8) :
    decodeGuarded bytes = .ok (decode? bytes) := by
  cases bytes using List.reverseRecOn with
  | nil => rfl
  | append_singleton front last =>
    have small := magnitude_lt short
    have gathered : gather (front ++ [last]).length 0 0 (front ++ [last]) =
        .ok (magnitude (front ++ [last])) := by
      rw [gather_eq front last (by simp) short (by decide)]
      simp
    simp only [decodeGuarded, List.getLast?_concat, decode?]
    by_cases minimal : isMinimal (front ++ [last])
    · rw [if_pos minimal, if_pos minimal, gathered, isNegative_append]
      generalize magnitude (front ++ [last]) = size at small
      have within : ¬ Word.signedLimit ≤ (size : Int) := by
        simp only [Word.signedLimit]
        omega
      change (if Word.signedLimit ≤ (size : Int) then _ else _) = _
      rw [if_neg within]
      by_cases negative : 128 ≤ last.toNat
      · have fits : Word.signed (-(size : Int)) = .ok (-(size : Int)) :=
          if_pos (by simp only [Word.signedLimit]; omega)
        simp [negative, fits, Except.map]
      · simp [negative]
    · rw [if_neg minimal, if_neg minimal]

theorem follows_readGuarded (field : Field) : Guarded.Follows (readGuarded field) (read field) := by
  refine (Guarded.follows_ofReader _).bind fun opcode => ?_
  refine .ite (fun _ => Guarded.follows_pure _) fun _ => ?_
  refine .ite (fun _ => Guarded.follows_pure _) fun _ => ?_
  refine .ite (fun small => ?_) fun _ => ?_
  · have fits : Word.signed ((opcode.toNat : Int) - 0x50) = .ok ((opcode.toNat : Int) - 0x50) :=
      if_pos (by simp only [Word.signedLimit]; omega)
    rw [fits]
    exact Guarded.follows_pure _
  refine .ite (fun short => ?_) fun _ => Guarded.follows_fail _
  refine (Guarded.follows_take _ _).bind_of fun bytes ⟨_, _, taken⟩ => ?_
  obtain ⟨⟨_, counted⟩, -, rfl⟩ := (Reader.recognizes_bytes _ _).parse_eq_ok_iff.mp taken
  refine Guarded.Follows.step_bind (decodeGuarded_eq (Nat.le_trans (Nat.le_of_eq counted) short)) ?_
  cases decode? bytes with
  | none => exact Guarded.follows_fail _
  | some value => exact Guarded.follows_pure value

end ScriptNumber

end CompactChain
