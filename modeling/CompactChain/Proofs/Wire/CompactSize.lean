import CompactChain.Proofs.Wire.Guarded

set_option autoImplicit false

namespace CompactChain

theorem Reader.parse_timesAfter {α : Type} {item : Reader α} {spell : α → Bytes} {values : List α}
    (each : ∀ value ∈ values, ∀ rest, item.parse (spell value ++ rest) = .ok (value, rest))
    (before : List α) (rest : Bytes) :
    (timesAfter before item values.length).parse (values.flatMap spell ++ rest) =
      .ok (before.reverse ++ values, rest) := by
  induction values generalizing before with
  | nil => simp [timesAfter, parse, run]
  | cons value later ih =>
    have first := each value List.mem_cons_self (later.flatMap spell ++ rest)
    have others := ih (fun other member => each other (List.mem_cons_of_mem value member)) (value :: before)
    rw [List.flatMap_cons, List.append_assoc, List.length_cons, timesAfter, parse_bind, first]
    change (timesAfter (value :: before) item later.length).parse _ = _
    rw [others, List.reverse_cons, List.append_assoc, List.singleton_append]

namespace CompactSize

variable {field : Field}

theorem parse_read_cons (field : Field) (marker : UInt8) (rest : Bytes) :
    (read field).parse (marker :: rest) = Reader.parse (
      if marker = 0xfd then word field 2 0xfd
      else if marker = 0xfe then word field 4 0x10000
      else if marker = 0xff then word field 8 0x100000000
      else accept field 0 marker.toNat) rest :=
  rfl

theorem parse_accept {least size : Nat} (enough : least ≤ size) (rest : Bytes) :
    (accept field least size).parse rest =
      if limit < size then .error (.compactSize field .tooLarge) else .ok (size, rest) := by
  rw [accept, if_neg (Nat.not_lt.mpr enough)]
  split <;> rfl

theorem parse_word {width least size : Nat} (enough : least ≤ size) (fits : size < 256 ^ width)
    (tail : Bytes) :
    (word field width least).parse (LittleEndian.ofNat width size ++ tail) =
      if limit < size then .error (.compactSize field .tooLarge) else .ok (size, tail) := by
  have counted : (LittleEndian.ofNat width size).length = width := LittleEndian.length_ofNat _ _
  rw [← parse_accept enough, word, Reader.parse, Reader.run, List.take_left' counted,
    List.drop_left' counted]
  simp only [counted, if_true, LittleEndian.toNat_ofNat fits]
  rfl

theorem parse_write {size : Nat} (fits : size < 2 ^ 64) (tail : Bytes) :
    (read field).parse (write size ++ tail) =
      if limit < size then .error (.compactSize field .tooLarge) else .ok (size, tail) := by
  rw [write]
  split
  next small =>
    have kept : (UInt8.ofNat size).toNat = size :=
      UInt8.toNat_ofNat_of_lt' (Nat.lt_trans small (by decide))
    have differs (marker : UInt8) (high : 0xfd ≤ marker.toNat) : UInt8.ofNat size ≠ marker := by
      intro same
      rw [same] at kept
      omega
    rw [List.singleton_append, parse_read_cons, if_neg (differs 0xfd (by decide)),
      if_neg (differs 0xfe (by decide)), if_neg (differs 0xff (by decide)), kept]
    exact parse_accept (Nat.zero_le size) tail
  split
  next large two =>
    have fits : size < 256 ^ 2 := two
    rw [List.cons_append, parse_read_cons, if_pos rfl, parse_word (Nat.not_lt.mp large) fits]
  split
  next large four =>
    have fits : size < 256 ^ 4 := four
    rw [List.cons_append, parse_read_cons, if_neg (by decide), if_pos rfl,
      parse_word (Nat.not_lt.mp large) fits]
  next large =>
    have fits : size < 256 ^ 8 := fits
    rw [List.cons_append, parse_read_cons, if_neg (by decide), if_neg (by decide), if_pos rfl,
      parse_word (Nat.not_lt.mp large) fits]

-- The word is cut off, or holds a value that a narrower form can hold, or else one of its own.
theorem word_cases (field : Field) (width least : Nat) (input : Bytes) :
    (word field width least).parse input = .error (.truncated field) ∨
      (word field width least).parse input = .error (.compactSize field .nonCanonical) ∨
      ∃ size tail, least ≤ size ∧ size < 256 ^ width ∧ input = LittleEndian.ofNat width size ++ tail := by
  rw [word, Reader.parse, Reader.run]
  by_cases counted : (input.take width).length = width
  next =>
    have fits := LittleEndian.toNat_lt (input.take width)
    have spelled := LittleEndian.ofNat_toNat (input.take width)
    rw [counted] at fits spelled
    by_cases less : LittleEndian.toNat (input.take width) < least
    next =>
      refine .inr (.inl ?_)
      simp only [counted, if_true, accept, less]
      rfl
    next =>
      refine .inr (.inr ⟨_, input.drop width, Nat.not_lt.mp less, fits, ?_⟩)
      rw [spelled, List.take_append_drop]
  next =>
    refine .inl ?_
    simp only [counted, if_false]

theorem read_cases (field : Field) (data : Bytes) :
    (read field).parse data = .error (.truncated field) ∨
      (read field).parse data = .error (.compactSize field .nonCanonical) ∨
      ∃ size tail, size < 2 ^ 64 ∧ data = write size ++ tail := by
  cases data with
  | nil => exact .inl rfl
  | cons marker rest =>
    rw [parse_read_cons]
    split
    next two =>
      refine (word_cases field 2 0xfd rest).imp_right (Or.imp_right ?_)
      intro held
      obtain ⟨size, tail, least, fits, spelled⟩ := held
      refine ⟨size, tail, Nat.lt_trans fits (by decide), ?_⟩
      rw [write, if_neg (Nat.not_lt.mpr least), if_pos (by omega), two, spelled, List.cons_append]
    split
    next four =>
      refine (word_cases field 4 0x10000 rest).imp_right (Or.imp_right ?_)
      intro held
      obtain ⟨size, tail, least, fits, spelled⟩ := held
      refine ⟨size, tail, Nat.lt_trans fits (by decide), ?_⟩
      rw [write, if_neg (by omega), if_neg (Nat.not_lt.mpr least), if_pos (by omega), four, spelled,
        List.cons_append]
    split
    next eight =>
      refine (word_cases field 8 0x100000000 rest).imp_right (Or.imp_right ?_)
      intro held
      obtain ⟨size, tail, least, fits, spelled⟩ := held
      refine ⟨size, tail, fits, ?_⟩
      rw [write, if_neg (by omega), if_neg (by omega), if_neg (Nat.not_lt.mpr least), eight, spelled,
        List.cons_append]
    next two four eight =>
      have small := marker.toNat_lt
      have others : marker.toNat ≠ 0xfd ∧ marker.toNat ≠ 0xfe ∧ marker.toNat ≠ 0xff :=
        ⟨fun same => two (UInt8.toNat_inj.mp same), fun same => four (UInt8.toNat_inj.mp same),
          fun same => eight (UInt8.toNat_inj.mp same)⟩
      refine .inr (.inr ⟨marker.toNat, rest, Nat.lt_trans small (by decide), ?_⟩)
      rw [write, if_pos (by omega), UInt8.ofNat_toNat, List.singleton_append]

theorem parse_eq_ok_iff_write {data rest : Bytes} {size : Nat} :
    (read field).parse data = .ok (size, rest) ↔ size ≤ limit ∧ data = write size ++ rest := by
  rw [(recognizes_read field).parse_eq_ok_iff]
  constructor
  next =>
    intro ⟨⟨_, within⟩, spelled, same⟩
    rw [Layout.bytes_field, ← same] at spelled
    exact ⟨same ▸ within, spelled⟩
  next =>
    intro ⟨within, spelled⟩
    exact ⟨⟨size, within⟩, by rw [Layout.bytes_field, spelled], rfl⟩

/-- A value up to the limit is read where it stands as it is written, and nothing else is read. -/
structure ReadsWritten (field : Field) : Prop where
  accepted : ∀ data size rest, (read field).parse data = .ok (size, rest) ↔
    size ≤ limit ∧ data = write size ++ rest
  oversized : ∀ size tail, limit < size → size < 2 ^ 64 →
    ∃ fault : SizeFault, fault.message = "exceeds maximum size" ∧
      (read field).parse (write size ++ tail) = .error (.compactSize field fault)
  others : ∀ data, (∀ size tail, size < 2 ^ 64 → data ≠ write size ++ tail) →
    (read field).parse data = .error (.truncated field) ∨
      ∃ fault : SizeFault, fault.message = "non-canonical encoding" ∧
        (read field).parse data = .error (.compactSize field fault)
  listed : ∀ sizes rest, (∀ size ∈ sizes, size ≤ limit) →
    (Reader.times sizes.length (read field)).parse (sizes.flatMap write ++ rest) = .ok (sizes, rest)
  single : ∀ code other size, (read field).parse code = .ok (size, []) →
    (read field).parse other = .ok (size, []) → code = other

theorem reads_written (field : Field) : ReadsWritten field where
  accepted _ _ _ := parse_eq_ok_iff_write
  oversized size tail large fits := ⟨.tooLarge, rfl, by rw [parse_write fits, if_pos large]⟩
  others data unwritten := by
    rcases read_cases field data with cut | narrow | ⟨size, tail, fits, spelled⟩
    · exact .inl cut
    · exact .inr ⟨.nonCanonical, rfl, narrow⟩
    · exact absurd spelled (unwritten size tail fits)
  listed sizes rest within := by
    refine Reader.parse_timesAfter (fun size member rest => ?_) [] rest
    exact parse_eq_ok_iff_write.mpr ⟨within size member, rfl⟩
  single code other size parsed again := by
    rw [(parse_eq_ok_iff_write.mp parsed).2, (parse_eq_ok_iff_write.mp again).2]

theorem reads_written_at_limit :
    let field := "count"
    limit < 0x02000001 ∧ 0x02000001 < 2 ^ 64 ∧
      (read field).parse (write 0x02000000 ++ [7]) = .ok (0x02000000, [7]) ∧
      (∃ fault : SizeFault, fault.message = "exceeds maximum size" ∧
        (read field).parse (write 0x02000001 ++ [7]) = .error (.compactSize field fault)) ∧
      (Reader.times 3 (read field)).parse ([0xfc, 0xfd, 0x10000].flatMap write ++ [7]) =
        .ok ([0xfc, 0xfd, 0x10000], [7]) := by
  intro field
  have reads := reads_written field
  refine ⟨by decide, by decide, ?_, ?_, ?_⟩
  · exact (reads.accepted _ _ _).mpr ⟨by decide, rfl⟩
  · exact reads.oversized 0x02000001 [7] (by decide) (by decide)
  · exact reads.listed [0xfc, 0xfd, 0x10000] [7] (by decide)

end CompactSize

end CompactChain
