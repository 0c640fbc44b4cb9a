import CompactChain.Proofs.Bytes
import CompactChain.Proofs.Wire.Layout
import CompactChain.Wire.CompactSize

set_option autoImplicit false

namespace CompactChain

abbrev FixedBytes (width : Nat) := { bytes : Bytes // bytes.length = width }

abbrev ShortBytes := { bytes : Bytes // bytes.length ≤ CompactSize.limit }

abbrev ShortList (α : Type) := { items : List α // items.length ≤ CompactSize.limit }

namespace Reader

variable {Form α β : Type}

/-- What the reader takes is laid out by a form, and its answer is the value of that form. -/
def Recognizes (reader : Reader α) (layout : Form → Layout) (value : Form → α) : Prop :=
  ∀ taken answer, reader.Reads taken answer ↔ ∃ form, layout form = taken ∧ value form = answer

variable {reader : Reader α} {layout : Form → Layout} {value : Form → α}

theorem Recognizes.reads_bind (recognizes : reader.Recognizes layout value) {f : α → Reader β}
    {taken : Layout} {answer : β} :
    (reader >>= f).Reads taken answer ↔
      ∃ form later, taken = layout form ++ later ∧ (f (value form)).Reads later answer := by
  rw [Reader.reads_bind]
  constructor
  · rintro ⟨first, _, later, rfl, reads, goesOn⟩
    obtain ⟨form, rfl, rfl⟩ := (recognizes first _).mp reads
    exact ⟨form, later, rfl, goesOn⟩
  · rintro ⟨form, later, rfl, goesOn⟩
    exact ⟨_, _, later, rfl, (recognizes _ _).mpr ⟨form, rfl, rfl⟩, goesOn⟩

theorem Recognizes.parse_eq_ok_iff (recognizes : reader.Recognizes layout value)
    {input rest : Bytes} {answer : α} :
    reader.parse input = .ok (answer, rest) ↔
      ∃ form, input = (layout form).bytes ++ rest ∧ answer = value form := by
  rw [Reader.parse_eq_ok_iff]
  constructor
  · rintro ⟨taken, reads, rfl⟩
    obtain ⟨form, rfl, rfl⟩ := (recognizes taken _).mp reads
    exact ⟨form, rfl, rfl⟩
  · rintro ⟨form, rfl, rfl⟩
    exact ⟨layout form, (recognizes _ _).mpr ⟨form, rfl, rfl⟩, rfl⟩

theorem reads_pure {taken : Layout} {result answer : α} :
    (pure result : Reader α).Reads taken answer ↔ taken = [] ∧ result = answer :=
  Iff.rfl

theorem reads_ofExcept {result : Except ParseError α} {taken : Layout} {answer : α} :
    (ofExcept result).Reads taken answer ↔ taken = [] ∧ result = .ok answer := by
  cases result <;> simp [ofExcept, Reads]

theorem recognizes_skip (count : Nat) (field : Field) :
    (skip count field).Recognizes (fun form : FixedBytes count => .field field form) fun _ => () := by
  intro taken answer
  constructor
  · rintro ⟨bytes, _, counted, rfl, rfl, _⟩
    exact ⟨⟨bytes, counted⟩, (List.append_nil _).symm, rfl⟩
  · rintro ⟨form, rfl, _⟩
    exact ⟨form, [], form.property, (List.append_nil _).symm, rfl, rfl⟩

theorem recognizes_bytes (count : Nat) (field : Field) :
    (bytes count field).Recognizes (fun form : FixedBytes count => .field field form)
      Subtype.val := by
  intro taken answer
  constructor
  · rintro ⟨bytes, _, counted, rfl, rfl, rfl⟩
    exact ⟨⟨bytes, counted⟩, (List.append_nil _).symm, rfl⟩
  · rintro ⟨form, rfl, rfl⟩
    exact ⟨form, [], form.property, (List.append_nil _).symm, rfl, rfl⟩

theorem recognizes_u8 (field : Field) :
    (u8 field).Recognizes (fun byte : UInt8 => .field field [byte]) id := by
  intro taken answer
  constructor
  · rintro ⟨bytes, _, counted, rfl, rfl, rfl⟩
    obtain ⟨byte, rfl⟩ := List.length_eq_one_iff.mp counted
    exact ⟨byte, rfl, rfl⟩
  · rintro ⟨byte, rfl, rfl⟩
    exact ⟨[byte], [], rfl, rfl, rfl, rfl⟩

theorem recognizes_word {width : Nat} (field : Field) {ofNat : Nat → α} {toNat : α → Nat}
    (spelled : ∀ word, toNat word < 256 ^ width) (there : ∀ word, ofNat (toNat word) = word)
    (back : ∀ n, n < 256 ^ width → toNat (ofNat n) = n) :
    (take width field fun bytes => done (ofNat (LittleEndian.toNat bytes))).Recognizes
      (fun word => .field field (LittleEndian.ofNat width (toNat word))) id := by
  intro taken answer
  constructor
  · rintro ⟨bytes, _, rfl, rfl, rfl, rfl⟩
    refine ⟨_, ?_, rfl⟩
    simp only [back _ (LittleEndian.toNat_lt bytes), LittleEndian.ofNat_toNat, List.append_nil]
  · rintro ⟨word, rfl, rfl⟩
    refine ⟨_, [], LittleEndian.length_ofNat _ _, (List.append_nil _).symm, rfl, ?_⟩
    rw [LittleEndian.toNat_ofNat (spelled word), there]
    rfl

theorem recognizes_u32 (field : Field) :
    (u32 field).Recognizes
      (fun word : UInt32 => .field field (LittleEndian.ofNat 4 word.toNat)) id :=
  recognizes_word field UInt32.toNat_lt (fun _ => UInt32.ofNat_toNat)
    fun _ => UInt32.toNat_ofNat_of_lt'

theorem recognizes_u64 (field : Field) :
    (u64 field).Recognizes
      (fun word : UInt64 => .field field (LittleEndian.ofNat 8 word.toNat)) id :=
  recognizes_word field UInt64.toNat_lt (fun _ => UInt64.ofNat_toNat)
    fun _ => UInt64.toNat_ofNat_of_lt'

theorem recognizes_i32 (field : Field) :
    (i32 field).Recognizes
      (fun word : Int32 => .field field (LittleEndian.ofNat 4 word.toUInt32.toNat)) id := by
  intro taken answer
  simp only [i32, (recognizes_u32 field).reads_bind, reads_pure]
  constructor
  · rintro ⟨word, _, rfl, rfl, rfl⟩
    exact ⟨word.toInt32, (List.append_nil _).symm, rfl⟩
  · rintro ⟨word, rfl, rfl⟩
    exact ⟨word.toUInt32, [], (List.append_nil _).symm, rfl, rfl⟩

theorem recognizes_i64 (field : Field) :
    (i64 field).Recognizes
      (fun word : Int64 => .field field (LittleEndian.ofNat 8 word.toUInt64.toNat)) id := by
  intro taken answer
  simp only [i64, (recognizes_u64 field).reads_bind, reads_pure]
  constructor
  · rintro ⟨word, _, rfl, rfl, rfl⟩
    exact ⟨word.toInt64, (List.append_nil _).symm, rfl⟩
  · rintro ⟨word, rfl, rfl⟩
    exact ⟨word.toUInt64, [], (List.append_nil _).symm, rfl, rfl⟩

theorem reads_timesAfter (recognizes : reader.Recognizes layout value) {before items : List α}
    {count : Nat} {taken : Layout} :
    (timesAfter before reader count).Reads taken items ↔
      ∃ forms : List Form, forms.length = count ∧ taken = forms.flatMap layout ∧
        items = before.reverse ++ forms.map value := by
  induction count generalizing before taken with
  | zero =>
    simp only [timesAfter, Reads, List.length_eq_zero_iff, exists_eq_left, List.flatMap_nil,
      List.map_nil, List.append_nil, eq_comm]
  | succ count ih =>
    have step : timesAfter before reader (count + 1) =
        reader >>= fun item => timesAfter (item :: before) reader count := rfl
    simp only [step, recognizes.reads_bind, ih]
    constructor
    · rintro ⟨form, _, rfl, forms, rfl, rfl, rfl⟩
      exact ⟨form :: forms, rfl, rfl, by simp⟩
    · rintro ⟨_ | ⟨form, forms⟩, counted, rfl, rfl⟩
      · contradiction
      · exact ⟨form, _, rfl, forms, Nat.succ.inj counted, rfl, by simp⟩

theorem recognizes_list (recognizes : reader.Recognizes layout value) (count width : Nat) :
    (list count width reader).Recognizes
      (fun forms : { forms : List Form // forms.length = count } => forms.val.flatMap layout)
      fun forms => forms.val.map value := by
  intro taken answer
  refine (reads_timesAfter recognizes).trans ?_
  constructor
  · rintro ⟨forms, counted, rfl, rfl⟩
    exact ⟨⟨forms, counted⟩, rfl, rfl⟩
  · rintro ⟨⟨forms, counted⟩, rfl, rfl⟩
    exact ⟨forms, counted, rfl, rfl⟩

end Reader

namespace CompactSize

variable {field : Field} {taken : Layout}

theorem reads_accept {least value answer : Nat} :
    (accept field least value).Reads taken answer ↔
      taken = [] ∧ value = answer ∧ least ≤ answer ∧ answer ≤ limit := by
  unfold accept
  split
  next less =>
    constructor
    · exact False.elim
    · rintro ⟨_, rfl, enough, _⟩
      omega
  next enough =>
    split
    next more =>
      constructor
      · exact False.elim
      · rintro ⟨_, rfl, _, within⟩
        omega
    next within =>
      constructor
      · rintro ⟨rfl, rfl⟩
        exact ⟨rfl, rfl, by omega, by omega⟩
      · rintro ⟨rfl, rfl, _⟩
        exact ⟨rfl, rfl⟩

theorem reads_word {width least answer : Nat} :
    (word field width least).Reads taken answer ↔
      taken = .field field (LittleEndian.ofNat width answer) ∧ answer < 256 ^ width ∧
        least ≤ answer ∧ answer ≤ limit := by
  constructor
  · rintro ⟨bytes, _, rfl, rfl, accepted⟩
    obtain ⟨rfl, rfl, enough, within⟩ := reads_accept.mp accepted
    rw [LittleEndian.ofNat_toNat, List.append_nil]
    exact ⟨rfl, LittleEndian.toNat_lt bytes, enough, within⟩
  · rintro ⟨rfl, fits, enough, within⟩
    refine ⟨_, [], LittleEndian.length_ofNat _ _, (List.append_nil _).symm, reads_accept.mpr ?_⟩
    exact ⟨rfl, LittleEndian.toNat_ofNat fits, enough, within⟩

-- The marker tells the width, and each width has the values that no narrower one can hold.
theorem reads_read {size : Nat} :
    (read field).Reads taken size ↔ size ≤ limit ∧ taken = .field field (write size) := by
  simp only [read, (Reader.recognizes_u8 field).reads_bind, id]
  constructor
  · rintro ⟨marker, later, rfl, reads⟩
    split at reads
    next two =>
      obtain ⟨rfl, fits, enough, within⟩ := reads_word.mp reads
      refine ⟨within, ?_⟩
      rw [write, if_neg (by omega), if_pos (by omega), two]
      rfl
    split at reads
    next four =>
      obtain ⟨rfl, fits, enough, within⟩ := reads_word.mp reads
      refine ⟨within, ?_⟩
      rw [write, if_neg (by omega), if_neg (by omega), if_pos (by omega), four]
      rfl
    split at reads
    next eight =>
      obtain ⟨rfl, _, enough, within⟩ := reads_word.mp reads
      have : limit < 0x100000000 := by decide
      omega
    next two four eight =>
      obtain ⟨rfl, rfl, _, within⟩ := reads_accept.mp reads
      have small := marker.toNat_lt
      have others : marker.toNat ≠ 0xfd ∧ marker.toNat ≠ 0xfe ∧ marker.toNat ≠ 0xff :=
        ⟨fun same => two (UInt8.toNat_inj.mp same), fun same => four (UInt8.toNat_inj.mp same),
          fun same => eight (UInt8.toNat_inj.mp same)⟩
      refine ⟨within, ?_⟩
      rw [write, if_pos (by omega), UInt8.ofNat_toNat, List.append_nil]
  · rintro ⟨within, rfl⟩
    have low : limit < 0x100000000 := by decide
    unfold write
    split
    next small =>
      have kept : (UInt8.ofNat size).toNat = size :=
        UInt8.toNat_ofNat_of_lt' (Nat.lt_trans small (by decide))
      have differs (marker : UInt8) (high : 0xfd ≤ marker.toNat) : UInt8.ofNat size ≠ marker := by
        rintro rfl
        omega
      refine ⟨UInt8.ofNat size, [], (List.append_nil _).symm, ?_⟩
      rw [if_neg (differs 0xfd (by decide)), if_neg (differs 0xfe (by decide)),
        if_neg (differs 0xff (by decide)), reads_accept]
      exact ⟨rfl, kept, Nat.zero_le _, within⟩
    split
    next large two =>
      exact ⟨0xfd, _, rfl, reads_word.mpr ⟨rfl, by omega, by omega, within⟩⟩
    split
    next large two four =>
      exact ⟨0xfe, _, rfl, reads_word.mpr ⟨rfl, by omega, by omega, within⟩⟩
    · omega

theorem recognizes_read (field : Field) :
    (read field).Recognizes
      (fun size : { size : Nat // size ≤ limit } => .field field (write size)) Subtype.val := by
  intro taken answer
  rw [reads_read]
  constructor
  · rintro ⟨within, rfl⟩
    exact ⟨⟨answer, within⟩, rfl, rfl⟩
  · rintro ⟨size, rfl, rfl⟩
    exact ⟨size.property, rfl⟩

theorem reads_counted {Form α β : Type} {item : Reader α} {layout : Form → Layout} {value : Form → α}
    (recognizes : item.Recognizes layout value) {width : Nat} {f : List α → Reader β} {answer : β} :
    (read field >>= fun count => Reader.list count width item >>= f).Reads taken answer ↔
      ∃ (forms : ShortList Form) (later : Layout),
        taken = Layout.field field (write forms.val.length) ++ (forms.val.flatMap layout ++ later) ∧
          (f (forms.val.map value)).Reads later answer := by
  simp only [(recognizes_read field).reads_bind, Reader.reads_bind]
  constructor
  · rintro ⟨⟨_, short⟩, _, rfl, _, _, later, rfl, listed, reads⟩
    obtain ⟨forms, rfl, rfl, rfl⟩ := (Reader.reads_timesAfter recognizes).mp listed
    exact ⟨⟨forms, short⟩, later, rfl, reads⟩
  · rintro ⟨⟨forms, short⟩, later, rfl, reads⟩
    have listed := (Reader.recognizes_list recognizes _ width _ _).mpr ⟨⟨forms, rfl⟩, rfl, rfl⟩
    exact ⟨⟨_, short⟩, _, rfl, _, _, later, rfl, listed, reads⟩

def writePrefixed (content : Bytes) : Bytes :=
  write content.length ++ content

theorem recognizes_readPrefixed (field : Field) :
    (readPrefixed field).Recognizes
      (fun content : ShortBytes => .field field (writePrefixed content)) Subtype.val := by
  intro taken answer
  simp only [readPrefixed, (recognizes_read field).reads_bind, writePrefixed, Layout.field_append]
  constructor
  · rintro ⟨⟨size, within⟩, later, rfl, reads⟩
    obtain ⟨⟨content, rfl⟩, rfl, rfl⟩ := (Reader.recognizes_bytes size field _ _).mp reads
    exact ⟨⟨content, within⟩, rfl, rfl⟩
  · rintro ⟨⟨content, within⟩, rfl, rfl⟩
    exact ⟨⟨content.length, within⟩, _, rfl,
      (Reader.recognizes_bytes _ field _ _).mpr ⟨⟨content, rfl⟩, rfl, rfl⟩⟩

theorem recognizes_skipPrefixed (field : Field) :
    (skipPrefixed field).Recognizes
      (fun content : ShortBytes => .field field (writePrefixed content)) fun _ => () := by
  intro taken answer
  simp only [skipPrefixed, (recognizes_read field).reads_bind, writePrefixed, Layout.field_append]
  constructor
  · rintro ⟨⟨size, within⟩, later, rfl, reads⟩
    obtain ⟨⟨content, rfl⟩, rfl, rfl⟩ := (Reader.recognizes_skip size field _ _).mp reads
    exact ⟨⟨content, within⟩, rfl, trivial⟩
  · rintro ⟨⟨content, within⟩, rfl, _⟩
    exact ⟨⟨content.length, within⟩, _, rfl,
      (Reader.recognizes_skip _ field _ _).mpr ⟨⟨content, rfl⟩, rfl, rfl⟩⟩

end CompactSize

namespace Layout

variable {Form : Type} {layout : Form → Layout} {name : Field} {rest left : Bytes}

def Unambiguous (layout : Form → Layout) : Prop :=
  ∀ ⦃form other : Form⦄ ⦃rest left : Bytes⦄,
    (layout form).bytes ++ rest = (layout other).bytes ++ left → rest = left ∧ form = other

theorem unambiguous_of_recognizes {α : Type} {reader : Reader α} {value : Form → α}
    (recognizes : reader.Recognizes layout value) (injective : Function.Injective value) :
    Unambiguous layout := by
  intro form other rest left same
  have first : reader.parse ((layout form).bytes ++ rest) = .ok (value form, rest) :=
    recognizes.parse_eq_ok_iff.mpr ⟨form, rfl, rfl⟩
  have second : reader.parse ((layout form).bytes ++ rest) = .ok (value other, left) :=
    recognizes.parse_eq_ok_iff.mpr ⟨other, same, rfl⟩
  obtain ⟨values, rests⟩ := Prod.mk.inj (Except.ok.inj (first.symm.trans second))
  exact ⟨rests, injective values⟩

theorem unambiguous_fixed {width : Nat} :
    Unambiguous fun form : FixedBytes width => field name form :=
  unambiguous_of_recognizes (Reader.recognizes_bytes width name) Subtype.val_injective

theorem unambiguous_prefixed :
    Unambiguous fun form : ShortBytes => field name (CompactSize.writePrefixed form) :=
  unambiguous_of_recognizes (CompactSize.recognizes_readPrefixed name) Subtype.val_injective

theorem unambiguous_word32 :
    Unambiguous fun word : UInt32 => field name (LittleEndian.ofNat 4 word.toNat) :=
  unambiguous_of_recognizes (Reader.recognizes_u32 name) Function.injective_id

theorem unambiguous_word64 :
    Unambiguous fun word : UInt64 => field name (LittleEndian.ofNat 8 word.toNat) :=
  unambiguous_of_recognizes (Reader.recognizes_u64 name) Function.injective_id

theorem word_eq {width word other : Nat} (fits : word < 256 ^ width) (also : other < 256 ^ width)
    (same : (field name (LittleEndian.ofNat width word)).bytes ++ rest =
      (field name (LittleEndian.ofNat width other)).bytes ++ left) : rest = left ∧ word = other := by
  simp only [bytes_field] at same
  obtain ⟨spelled, rests⟩ := List.append_inj same (by simp only [LittleEndian.length_ofNat])
  rw [← LittleEndian.toNat_ofNat fits, spelled, LittleEndian.toNat_ofNat also]
  exact ⟨rests, rfl⟩

theorem count_eq {count other : Nat} (short : count ≤ CompactSize.limit)
    (shorter : other ≤ CompactSize.limit)
    (same : (field name (CompactSize.write count)).bytes ++ rest =
      (field name (CompactSize.write other)).bytes ++ left) : rest = left ∧ count = other := by
  have unambiguous := unambiguous_of_recognizes (CompactSize.recognizes_read name)
    Subtype.val_injective
  obtain ⟨rests, counts⟩ := @unambiguous ⟨count, short⟩ ⟨other, shorter⟩ _ _ same
  exact ⟨rests, congrArg Subtype.val counts⟩

theorem Unambiguous.flatMap (unambiguous : Unambiguous layout) {forms others : List Form}
    (counted : forms.length = others.length)
    (same : bytes (forms.flatMap layout) ++ rest = bytes (others.flatMap layout) ++ left) :
    rest = left ∧ forms = others := by
  induction forms generalizing others with
  | nil =>
    obtain rfl := List.length_eq_zero_iff.mp counted.symm
    exact ⟨same, rfl⟩
  | cons form forms ih =>
    cases others with
    | nil => contradiction
    | cons other others =>
      simp only [List.flatMap_cons, bytes_append, List.append_assoc] at same
      obtain ⟨later, rfl⟩ := unambiguous same
      obtain ⟨rests, rfl⟩ := ih (Nat.succ.inj counted) later
      exact ⟨rests, rfl⟩

end Layout

end CompactChain
