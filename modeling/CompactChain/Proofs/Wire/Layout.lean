import CompactChain.Wire.Reader
import Mathlib.Data.List.Basic

set_option autoImplicit false

namespace CompactChain

abbrev Layout := List (Field × UInt8)

namespace Layout

def field (name : Field) (bytes : Bytes) : Layout :=
  bytes.map fun byte => (name, byte)

def bytes (layout : Layout) : Bytes :=
  layout.map Prod.snd

@[simp] theorem bytes_nil : bytes [] = [] := rfl

@[simp] theorem bytes_append (front back : Layout) : bytes (front ++ back) = bytes front ++ bytes back :=
  List.map_append

@[simp] theorem bytes_field (name : Field) (content : Bytes) : bytes (field name content) = content := by
  simp [bytes, field, Function.comp_def]

theorem bytes_flatten_cons (part : Layout) (parts : List Layout) :
    bytes (part :: parts).flatten = bytes part ++ bytes parts.flatten :=
  bytes_append part parts.flatten

@[simp] theorem length_field (name : Field) (content : Bytes) :
    (field name content).length = content.length :=
  List.length_map _

theorem field_append (name : Field) (front back : Bytes) :
    field name (front ++ back) = field name front ++ field name back :=
  List.map_append

end Layout

namespace Reader

variable {α β : Type}

/-- The reader takes these bytes, each for its field, and then answers. -/
def Reads : Reader α → Layout → α → Prop
  | done value, taken, answer => taken = [] ∧ value = answer
  | fail _, _, _ => False
  | take count field next, taken, answer =>
    ∃ bytes later, bytes.length = count ∧ taken = Layout.field field bytes ++ later ∧
      (next bytes).Reads later answer
  | reserve _ _ next, taken, answer => next.Reads taken answer

theorem reads_bind {reader : Reader α} {f : α → Reader β} {taken : Layout} {answer : β} :
    (reader >>= f).Reads taken answer ↔
      ∃ first value later, taken = first ++ later ∧ reader.Reads first value ∧
        (f value).Reads later answer := by
  change (reader.bind f).Reads taken answer ↔ _
  induction reader generalizing taken with
  | done value =>
    constructor
    · exact fun reads => ⟨[], value, taken, rfl, ⟨rfl, rfl⟩, reads⟩
    · rintro ⟨_, _, later, rfl, ⟨rfl, rfl⟩, reads⟩
      exact reads
  | fail error => simp [bind, Reads]
  | take count field next ih =>
    constructor
    · rintro ⟨bytes, rest, counted, rfl, reads⟩
      obtain ⟨first, value, later, rfl, taken, reads⟩ := (ih bytes).mp reads
      exact ⟨Layout.field field bytes ++ first, value, later, by rw [List.append_assoc],
        ⟨bytes, first, counted, rfl, taken⟩, reads⟩
    · rintro ⟨_, value, later, rfl, ⟨bytes, first, counted, rfl, taken⟩, reads⟩
      exact ⟨bytes, first ++ later, counted, List.append_assoc _ _ _,
        (ih bytes).mpr ⟨first, value, later, rfl, taken, reads⟩⟩
  | reserve count width next ih => exact ih

theorem run_eq_ok_iff {reader : Reader α} {input rest : Bytes} {answer : α} :
    reader.run input = (.ok answer, rest) ↔
      ∃ taken, reader.Reads taken answer ∧ input = Layout.bytes taken ++ rest := by
  induction reader generalizing input with
  | done value =>
    constructor
    · intro same
      obtain ⟨value, left⟩ := Prod.mk.inj same
      exact ⟨[], ⟨rfl, Except.ok.inj value⟩, left⟩
    · rintro ⟨_, ⟨rfl, rfl⟩, rfl⟩
      rfl
  | fail error => simp [run, Reads]
  | take count field next ih =>
    rw [run]
    constructor
    · intro answered
      split at answered
      next counted =>
        obtain ⟨later, reads, left⟩ := (ih _).mp answered
        refine ⟨_, ⟨input.take count, later, counted, rfl, reads⟩, ?_⟩
        rw [Layout.bytes_append, Layout.bytes_field, List.append_assoc, ← left,
          List.take_append_drop]
      · simp at answered
    · rintro ⟨_, ⟨bytes, later, counted, rfl, reads⟩, rfl⟩
      rw [Layout.bytes_append, Layout.bytes_field, List.append_assoc, List.take_left' counted,
        List.drop_left' counted]
      simp only [counted, if_true]
      exact (ih bytes).mpr ⟨later, reads, rfl⟩
  | reserve count width next ih => exact ih

theorem parse_eq_ok_iff {reader : Reader α} {input rest : Bytes} {answer : α} :
    reader.parse input = .ok (answer, rest) ↔
      ∃ taken, reader.Reads taken answer ∧ input = Layout.bytes taken ++ rest := by
  rw [← run_eq_ok_iff, parse]
  cases ran : reader.run input with
  | mk result left => cases result <;> simp

theorem parse_append {reader : Reader α} {input rest : Bytes} {answer : α}
    (parsed : reader.parse input = .ok (answer, rest)) (more : Bytes) :
    reader.parse (input ++ more) = .ok (answer, rest ++ more) := by
  obtain ⟨taken, reads, rfl⟩ := parse_eq_ok_iff.mp parsed
  exact parse_eq_ok_iff.mpr ⟨taken, reads, List.append_assoc _ _ _⟩

theorem run_append_error {reader : Reader α} {input rest : Bytes} {error : ParseError}
    (whole : ∀ field, error ≠ .truncated field) (failed : reader.run input = (.error error, rest))
    (more : Bytes) : reader.run (input ++ more) = (.error error, rest ++ more) := by
  induction reader generalizing input with
  | done value => simp [run] at failed
  | fail cause =>
    obtain ⟨cause, rfl⟩ := Prod.mk.inj failed
    rw [run, cause]
  | take count field next ih =>
    simp only [run] at failed ⊢
    split at failed
    next counted =>
      have enough : count ≤ input.length := by
        rw [List.length_take] at counted
        omega
      rw [List.take_append_of_le_length enough, if_pos counted, List.drop_append_of_le_length enough]
      exact ih _ failed
    · exact absurd (Except.error.inj (Prod.mk.inj failed).1).symm (whole field)
  | reserve count width next ih => exact ih failed

theorem parse_append_error {reader : Reader α} {input : Bytes} {error : ParseError}
    (whole : ∀ field, error ≠ .truncated field) (failed : reader.parse input = .error error)
    (more : Bytes) : reader.parse (input ++ more) = .error error := by
  unfold parse at failed ⊢
  split at failed
  · contradiction
  next cause rest ran =>
    obtain rfl := Except.error.inj failed
    rw [run_append_error whole ran more]

theorem run_take {reader : Reader α} {taken : Layout} {answer : α} (reads : reader.Reads taken answer)
    {count : Nat} {name : Field} {byte : UInt8} (missing : taken[count]? = some (name, byte)) :
    (reader.run ((Layout.bytes taken).take count)).1 = .error (.truncated name) := by
  induction reader generalizing taken count with
  | done value =>
    obtain ⟨rfl, _⟩ := reads
    simp at missing
  | fail error => exact reads.elim
  | take width field next ih =>
    obtain ⟨bytes, later, counted, rfl, reads⟩ := reads
    rw [Layout.bytes_append, Layout.bytes_field, run]
    by_cases inside : count < bytes.length
    next =>
      -- the first byte that is missing is one of those asked for now
      have short : (((bytes ++ Layout.bytes later).take count).take width).length ≠ width := by
        simp only [List.length_take, List.length_append]
        omega
      rw [List.getElem?_append_left (by simpa using inside), Layout.field, List.getElem?_map] at missing
      obtain ⟨_, _, same⟩ := Option.map_eq_some_iff.mp missing
      rw [if_neg short, (Prod.mk.inj same).1]
    next =>
      have beyond : width ≤ count := by omega
      have after : (Layout.field field bytes).length ≤ count := by
        rw [Layout.length_field]
        omega
      rw [List.getElem?_append_right after, Layout.length_field, counted] at missing
      rw [List.take_take, Nat.min_eq_left beyond, List.take_left' counted, if_pos counted,
        ← counted, List.drop_take, List.drop_left]
      exact ih bytes reads (counted ▸ missing)
  | reserve count width next ih => exact ih reads missing

theorem parse_take {reader : Reader α} {taken : Layout} {answer : α} (reads : reader.Reads taken answer)
    {count : Nat} {name : Field} {byte : UInt8} (missing : taken[count]? = some (name, byte)) :
    reader.parse ((Layout.bytes taken).take count) = .error (.truncated name) := by
  have failed := run_take reads missing
  unfold parse
  split
  next ran => simp [ran] at failed
  next cause rest ran =>
    rw [ran] at failed
    rw [Except.error.inj failed]

theorem reads_withBytesAfter {reader : Reader α} {chunks : List Bytes} {taken : Layout}
    {bytes : Bytes} {answer : α} :
    (reader.withBytesAfter chunks).Reads taken (bytes, answer) ↔
      bytes = chunks.reverse.flatten ++ Layout.bytes taken ∧ reader.Reads taken answer := by
  induction reader generalizing chunks taken with
  | done value =>
    simp only [withBytesAfter, Reads, Prod.mk.injEq]
    constructor
    · rintro ⟨rfl, rfl, rfl⟩
      simp
    · rintro ⟨rfl, rfl, rfl⟩
      simp
  | fail error => simp [withBytesAfter, Reads]
  | take count field next ih =>
    simp only [withBytesAfter, Reads, ih]
    constructor
    · rintro ⟨chunk, later, counted, rfl, rfl, reads⟩
      exact ⟨by simp, chunk, later, counted, rfl, reads⟩
    · rintro ⟨rfl, chunk, later, counted, rfl, reads⟩
      exact ⟨chunk, later, counted, rfl, by simp, reads⟩
  | reserve count width next ih => exact ih

theorem reads_withBytes {reader : Reader α} {taken : Layout} {bytes : Bytes} {answer : α} :
    reader.withBytes.Reads taken (bytes, answer) ↔
      bytes = Layout.bytes taken ∧ reader.Reads taken answer :=
  reads_withBytesAfter

end Reader

end CompactChain
