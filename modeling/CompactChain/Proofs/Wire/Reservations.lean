import CompactChain.Wire.Reader

set_option autoImplicit false

namespace CompactChain.Reader

variable {α β γ : Type}

theorem capacity_mul_le (left count width : Nat) : capacity left count width * width ≤ left :=
  calc capacity left count width * width
    _ ≤ left / max width 1 * max width 1 := Nat.mul_le_mul (Nat.min_le_right _ _) (Nat.le_max_left _ _)
    _ ≤ left := Nat.div_mul_le_self _ _

theorem capacity_eq_count {left count width : Nat} (positive : 0 < width) (room : count * width ≤ left) :
    capacity left count width = count := by
  rw [capacity, Nat.max_eq_left positive]
  exact Nat.min_eq_left ((Nat.le_div_iff_mul_le positive).mpr room)

def Reservation.room (reservation : Reservation) : Nat × Nat :=
  (capacity reservation.left reservation.count reservation.width, reservation.width)

inductive BeginsWith : Reader α → Reader β → Prop
  | done (reader : Reader α) (value : β) : BeginsWith reader (.done value)
  | fail (error : ParseError) : BeginsWith (.fail error) (.fail error)
  | take {count : Nat} {field : Field} {next : Bytes → Reader α} {first : Bytes → Reader β}
      (each : ∀ bytes, BeginsWith (next bytes) (first bytes)) :
      BeginsWith (.take count field next) (.take count field first)
  | reserve {count width : Nat} {next : Reader α} {first : Reader β} (later : BeginsWith next first) :
      BeginsWith (.reserve count width next) (.reserve count width first)

variable {reader : Reader α} {first : Reader β}

theorem beginsWith_refl (reader : Reader α) : reader.BeginsWith reader := by
  induction reader with
  | done value => exact .done _ value
  | fail error => exact .fail error
  | take count field next ih => exact .take ih
  | reserve count width next ih => exact .reserve ih

theorem BeginsWith.bind (begins : reader.BeginsWith first) (f : α → Reader γ) :
    (reader.bind f).BeginsWith first := by
  induction begins with
  | done reader value => exact .done _ value
  | fail error => exact .fail error
  | take each ih => exact .take ih
  | reserve later ih => exact .reserve ih

theorem BeginsWith.withBytesAfter (begins : reader.BeginsWith first) (chunks : List Bytes) :
    (reader.withBytesAfter chunks).BeginsWith first := by
  induction begins generalizing chunks with
  | done reader value => exact .done _ value
  | fail error => exact .fail error
  | take each ih => exact .take fun bytes => ih bytes _
  | reserve later ih => exact .reserve (ih chunks)

theorem BeginsWith.run_error (begins : reader.BeginsWith first) {input rest : Bytes} {error : ParseError}
    (failed : first.run input = (.error error, rest)) : reader.run input = (.error error, rest) := by
  induction begins generalizing input with
  | done reader value => cases failed
  | fail cause =>
    obtain ⟨same, rfl⟩ := Prod.mk.inj failed
    rw [run, Except.error.inj same]
  | take each ih =>
    rw [run] at failed ⊢
    split at failed
    next counted =>
      rw [if_pos counted]
      exact ih _ failed
    next short =>
      rw [if_neg short]
      obtain ⟨same, rfl⟩ := Prod.mk.inj failed
      rw [Except.error.inj same]
  | reserve later ih => exact ih failed

end CompactChain.Reader
