import CompactChain.Proofs.Bytes.Hex
import CompactChain.Text.Blank
import Mathlib.Data.List.TakeWhile

set_option autoImplicit false

namespace CompactChain

namespace Text

def Blank (text : List Char) : Prop :=
  ∀ c ∈ text, isBlank c = true

instance : DecidablePred Blank := fun text => List.decidableBAll _ text

theorem Blank.reverse {text : List Char} (blank : Blank text) : Blank text.reverse :=
  fun c member => blank c (List.mem_reverse.mp member)

theorem dropWhile_blank {front core : List Char} (blank : Blank front)
    (begins : ∀ c ∈ core.head?, isBlank c = false) : (front ++ core).dropWhile isBlank = core := by
  rw [List.dropWhile_append_of_pos blank]
  cases core with
  | nil => rfl
  | cons c rest => exact List.dropWhile_cons_of_neg (by simp [begins c rfl])

theorem trim_around {front core back : List Char} (before : Blank front) (after : Blank back)
    (visible : ∀ c ∈ core, isBlank c = false) : trim (front ++ core ++ back) = core := by
  cases core with
  | nil =>
    have blank : Blank (front ++ back) := fun c member =>
      (List.mem_append.mp member).elim (before c) (after c)
    rw [trim, List.append_nil, List.dropWhile_eq_nil_iff.mpr blank]
    rfl
  | cons first rest =>
    have ends : ∀ c ∈ (first :: rest).reverse.head?, isBlank c = false := fun c member =>
      visible c (List.mem_reverse.mp (List.mem_of_mem_head? member))
    have begins : ∀ c ∈ (first :: rest ++ back).head?, isBlank c = false := fun c member =>
      visible c (by rw [Option.mem_some.mp member]; exact List.mem_cons_self)
    rw [trim, List.append_assoc, dropWhile_blank before begins, List.reverse_append,
      dropWhile_blank after.reverse ends, List.reverse_reverse]

theorem exists_around_trim (text : List Char) :
    ∃ front back, text = front ++ trim text ++ back ∧ Blank front ∧ Blank back := by
  let shorter := text.dropWhile isBlank
  refine ⟨text.takeWhile isBlank, (shorter.reverse.takeWhile isBlank).reverse, ?_, ?_, ?_⟩
  · have rest : trim text ++ (shorter.reverse.takeWhile isBlank).reverse = shorter := by
      rw [trim, ← List.reverse_append, List.takeWhile_append_dropWhile, List.reverse_reverse]
    rw [List.append_assoc, rest, List.takeWhile_append_dropWhile]
  · exact fun c member => List.mem_takeWhile_imp member
  · exact fun c member => List.mem_takeWhile_imp (List.mem_reverse.mp member)

end Text

namespace Hex

/-- Text that stands for the data: its digits in either case, with white space around them. -/
def Spelled (text : String) (data : Bytes) : Prop :=
  ∃ front digits back, text.toList = front ++ digits ++ back ∧ Text.Blank front ∧ Text.Blank back ∧
    digits.map Char.toLower = encode data

theorem isBlank_of_isDigit {c : Char} (digit : IsDigit c) : Text.isBlank c = false := by
  have ranges := isDigit_iff_toNat.mp digit
  simp only [Text.isBlank, Text.blankRanges, List.any_cons, List.any_nil, Bool.or_false,
    Bool.or_eq_false_iff, Bool.and_eq_false_imp, decide_eq_true_eq, decide_eq_false_iff_not]
  omega

theorem decode_trim_eq_ok_iff {text : String} {data : Bytes} :
    decode (Text.trim text.toList) = .ok data ↔ Spelled text data := by
  rw [decode_eq_ok_iff]
  constructor
  next =>
    intro spelled
    obtain ⟨front, back, around, before, after⟩ := Text.exists_around_trim text.toList
    exact ⟨front, _, back, around, before, after, spelled⟩
  next =>
    intro ⟨front, digits, back, around, before, after, spelled⟩
    rw [around, Text.trim_around before after fun c member =>
      isBlank_of_isDigit (isDigit_of_spelled spelled c member), spelled]

end Hex

end CompactChain
