import CompactChain.Proofs.Chain.Announcements
import CompactChain.Proofs.Chain.Prefixes
import CompactChain.Wire.Cursor

set_option autoImplicit false

namespace CompactChain

namespace Reader

variable {α : Type} {reader : Reader α}

structure Reservation.Honoured (reservation : Reservation) (reader : Reader α) (data : Bytes) : Prop where
  within : capacity reservation.left reservation.count reservation.width * reservation.width ≤
    reservation.left
  listed : ∃ (β : Type) (items : Reader (List β)) (left : Bytes),
    CountedList reservation.count reservation.width items ∧ left <:+ data ∧
      left.length = reservation.left ∧
      ((∃ error rest, items.run left = (.error error, rest) ∧ reader.run data = (.error error, rest)) ∨
        ∃ found rest, items.run left = (.ok found, rest) ∧ found.length = reservation.count ∧
          capacity reservation.left reservation.count reservation.width = reservation.count)

section Announcing

variable {lists : α → List (Nat × Nat)} {before : List (Nat × Nat)}

theorem Announces.honoured (announces : reader.Announces lists before) {data : Bytes}
    {reservation : Reservation} (member : reservation ∈ reader.reservations data) :
    reservation.Honoured reader data := by
  refine ⟨capacity_mul_le _ _ _, ?_⟩
  induction announces generalizing data with
  | done value same => cases member
  | fail error => cases member
  | @take before count field next each ih =>
    rw [reservations] at member
    split at member
    next enough =>
      obtain ⟨β, items, left, counted, suffix, there, becomes⟩ := ih _ member
      refine ⟨β, items, left, counted, suffix.trans (List.drop_suffix _ _), there, ?_⟩
      rw [run, if_pos enough]
      exact becomes
    next short => cases member
  | @reserve before count width next β items counted begins later ih =>
    rcases List.mem_cons.mp member with rfl | member
    next =>
      refine ⟨β, items, data, counted, List.suffix_rfl, rfl, ?_⟩
      cases ran : items.run data with
      | mk result rest =>
        cases result with
        | error error => exact .inl ⟨error, rest, rfl, begins.run_error ran⟩
        | ok found => exact .inr ⟨found, rest, rfl, counted.capacity_eq_count ran⟩
    next => exact ih member

theorem Announces.announced (announces : reader.Announces lists before) {input rest : Bytes} {found : α}
    (ran : reader.run input = (.ok found, rest)) :
    before ++ (reader.reservations input).map (fun made => (made.count, made.width)) = lists found := by
  induction announces generalizing input with
  | done value same =>
    obtain ⟨here, -⟩ := Prod.mk.inj ran
    obtain rfl := Except.ok.inj here
    exact (List.append_nil _).trans same.symm
  | fail error => cases ran
  | take each ih =>
    rw [run] at ran
    rw [reservations]
    split at ran
    next enough =>
      rw [if_pos enough]
      exact ih _ ran
    next => cases ran
  | reserve counted begins later ih =>
    rw [← ih ran, reservations, List.map_cons, List.append_assoc, List.singleton_append]

-- Where all is read, no list fails, so that there was room for each of them.
theorem Announces.rooms_eq (announces : reader.Announces lists []) {data rest : Bytes} {found : α}
    (parsed : reader.parse data = .ok (found, rest)) :
    (reader.reservations data).map Reservation.room = lists found := by
  have ran := run_eq_ok_iff.mpr (parse_eq_ok_iff.mp parsed)
  rw [← announces.announced ran, List.nil_append]
  refine List.map_congr_left fun reservation member => ?_
  obtain ⟨_, _, _, -, -, -, ⟨error, left, -, failed⟩ | ⟨_, _, -, -, room⟩⟩ :=
    (announces.honoured member).listed
  next => cases failed.symm.trans ran
  next => exact congrArg (·, reservation.width) room

end Announcing

theorem parse_of_withoutArguments {decoder : String} {txids : Option (List Bytes)}
    {txVersion : Option UInt32} {data : Bytes} {answer : α × Bytes}
    (parsed : (reader.withoutArguments decoder txids txVersion).parse data = .ok answer) :
    reader.parse data = .ok answer := by
  unfold withoutArguments at parsed
  split at parsed
  · contradiction
  split at parsed
  · contradiction
  · exact parsed

theorem Recognizes.takes {Form : Type} {layout : Form → Layout} {value : Form → α}
    (recognizes : reader.Recognizes layout value) {data rest : Bytes} {answer : α}
    (parsed : reader.parse data = .ok (answer, rest)) :
    ∃ taken form, data = taken ++ rest ∧ taken.length = (layout form).length := by
  obtain ⟨form, rfl, -⟩ := recognizes.parse_eq_ok_iff.mp parsed
  exact ⟨(layout form).bytes, form, rfl, List.length_map _⟩

end Reader

/-- The least lengths are right for what is read from the data, and so is the room that is made for lists: never
more than could be filled, and on success for each of the lists that are read, as long as it is. -/
structure RoomFits (txids : Option (List Bytes)) (txVersion : Option UInt32) (data : Bytes) : Prop where
  input : ∀ input rest,
    (TransparentInput.read.withoutArguments "TxIn" txids txVersion).parse data = .ok (input, rest) →
      ∃ taken, data = taken ++ rest ∧ TransparentInput.leastLength ≤ taken.length
  output : ∀ output rest,
    (TransparentOutput.read.withoutArguments "TxOut" txids txVersion).parse data = .ok (output, rest) →
      ∃ taken, data = taken ++ rest ∧ TransparentOutput.leastLength ≤ taken.length
  action : ∀ action rest,
    (Action.read.withoutArguments "Action" txids txVersion).parse data = .ok (action, rest) →
      ∃ taken, data = taken ++ rest ∧ taken.length = Action.encodedLength
  transaction : ∀ tx rest, (Transaction.readAlone txids txVersion).parse data = .ok (tx, rest) →
    ∃ taken, data = taken ++ rest ∧ Transaction.leastLength ≤ taken.length
  capacity : ∀ position count width,
    (Cursor.mk data position).capacity count width * width ≤ (Cursor.mk data position).remaining
  inTransaction : ∀ reservation ∈ (Transaction.readAlone txids txVersion).reservations data,
    reservation.Honoured (Transaction.readAlone txids txVersion) data
  inBlock : ∀ reservation ∈ (Block.read txids txVersion).reservations data,
    reservation.Honoured (Block.read txids txVersion) data
  ofTransaction : ∀ tx rest, (Transaction.readAlone txids txVersion).parse data = .ok (tx, rest) →
    ((Transaction.readAlone txids txVersion).reservations data).map Reader.Reservation.room = tx.lists
  ofBlock : ∀ block rest, (Block.read txids txVersion).parse data = .ok (block, rest) →
    ((Block.read txids txVersion).reservations data).map Reader.Reservation.room = block.lists

theorem room_fits_any_input (txids : Option (List Bytes)) (txVersion : Option UInt32) (data : Bytes) :
    RoomFits txids txVersion data where
  input _ _ parsed := by
    obtain ⟨taken, form, split, whole⟩ :=
      TransparentInput.recognizes.takes (Reader.parse_of_withoutArguments parsed)
    exact ⟨taken, split, whole ▸ form.length_layout_ge⟩
  output _ _ parsed := by
    obtain ⟨taken, form, split, whole⟩ :=
      TransparentOutput.recognizes.takes (Reader.parse_of_withoutArguments parsed)
    exact ⟨taken, split, whole ▸ form.length_layout_ge⟩
  action _ _ parsed := by
    obtain ⟨taken, form, split, whole⟩ :=
      Action.recognizes.takes (Reader.parse_of_withoutArguments parsed)
    exact ⟨taken, split, whole.trans form.length_layout⟩
  transaction _ _ parsed := by
    obtain ⟨taken, reads, rfl⟩ := Reader.parse_eq_ok_iff.mp parsed
    obtain ⟨form, rfl⟩ := Transaction.formed_of_reads reads
    refine ⟨form.layout.bytes, rfl, ?_⟩
    rw [Layout.bytes, List.length_map]
    exact form.length_layout_ge
  capacity position := Reader.capacity_mul_le (Cursor.mk data position).remaining
  inTransaction _ := (Transaction.announces_readAlone txids txVersion).honoured
  inBlock _ := (Block.announces_read txids txVersion).honoured
  ofTransaction _ _ := (Transaction.announces_readAlone txids txVersion).rooms_eq
  ofBlock _ _ := (Block.announces_read txids txVersion).rooms_eq

example :
    (Transaction.readAlone none none).reservations
        ([0x04, 0x00, 0x00, 0x80, 0x85, 0x20, 0x2f, 0x89, 0xfe, 0x00, 0x00, 0x00, 0x02] ++
          List.replicate 30 0) =
      [⟨0x02000000, 41, 30⟩] := by
  decide

end CompactChain
