import CompactChain.Proofs.Chain.BlockReading

set_option autoImplicit false

namespace CompactChain

structure Reader.PrefixLaws {α Form : Type} (reader : Reader α) (layout : Form → Layout) : Prop where
  extended : ∀ data rest answer more, reader.parse data = .ok (answer, rest) →
    reader.parse (data ++ more) = .ok (answer, rest ++ more)
  refused : ∀ data error more, (∀ field, error ≠ .truncated field) →
    reader.parse data = .error error → reader.parse (data ++ more) = .error error
  cut : ∀ data answer, reader.parse data = .ok (answer, []) →
    ∃ form, data = (layout form).bytes ∧ ∀ count (inside : count < (layout form).length),
      reader.parse (data.take count) = .error (.truncated (layout form)[count].1)

theorem Reader.prefixLaws {α Form : Type} {reader : Reader α} {layout : Form → Layout}
    (formed : ∀ taken answer, reader.Reads taken answer → ∃ form, layout form = taken) :
    reader.PrefixLaws layout where
  extended _ _ _ more parsed := parse_append parsed more
  refused _ _ more whole failed := parse_append_error whole failed more
  cut data answer parsed := by
    obtain ⟨taken, reads, rfl⟩ := parse_eq_ok_iff.mp parsed
    obtain ⟨form, rfl⟩ := formed taken answer reads
    rw [List.append_nil]
    refine ⟨form, rfl, fun count inside => ?_⟩
    exact parse_take reads (List.getElem?_eq_getElem inside)

theorem Transaction.formed_of_reads {txids : Option (List Bytes)} {txVersion : Option UInt32}
    {taken : Layout} {tx : Transaction} (reads : (readAlone txids txVersion).Reads taken tx) :
    ∃ form : TransactionForm, form.layout = taken := by
  obtain ⟨form, _, formed, -⟩ := form_of_readAlone reads
  exact ⟨form, formed⟩

theorem Block.formed_of_reads {txids : Option (List Bytes)} {txVersion : Option UInt32}
    {taken : Layout} {block : Block} (reads : (read txids txVersion).Reads taken block) :
    ∃ form : BlockForm, form.layout = taken := by
  cases txVersion with
  | some version => exact reads.elim
  | none =>
    obtain ⟨form, formed, _⟩ := reads_read.mp reads
    exact ⟨form, formed⟩

theorem prefixLaws_of_decoders (txids : Option (List Bytes)) (txVersion : Option UInt32) :
    (Transaction.readAlone txids txVersion).PrefixLaws TransactionForm.layout ∧
      (Block.read txids txVersion).PrefixLaws BlockForm.layout :=
  ⟨Reader.prefixLaws fun _ _ => Transaction.formed_of_reads,
    Reader.prefixLaws fun _ _ => Block.formed_of_reads⟩

end CompactChain
