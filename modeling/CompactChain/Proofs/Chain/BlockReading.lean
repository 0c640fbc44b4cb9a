import CompactChain.Proofs.Chain.BlockForm
import CompactChain.Proofs.Chain.TransactionReading

set_option autoImplicit false

namespace CompactChain

open Reader (recognizes_bytes recognizes_u32 recognizes_i32 reads_pure reads_ofExcept
  reads_withBytes)
open CompactSize (recognizes_read recognizes_readPrefixed)

theorem HeaderFields.recognizes : read.Recognizes HeaderForm.layout HeaderForm.fields := by
  intro taken answer
  simp only [read, (recognizes_i32 _).reads_bind, (recognizes_u32 _).reads_bind,
    (recognizes_bytes _ _).reads_bind, (recognizes_readPrefixed _).reads_bind, reads_pure]
  constructor
  · rintro ⟨version, _, rfl, prev, _, rfl, merkle, _, rfl, commitments, _, rfl, time, _, rfl, bits, _, rfl,
      nonce, _, rfl, solution, _, rfl, rfl, rfl⟩
    exact ⟨⟨version, prev, merkle, commitments, time, bits, nonce, solution⟩, rfl, rfl⟩
  · rintro ⟨⟨version, prev, merkle, commitments, time, bits, nonce, solution⟩, rfl, rfl⟩
    exact ⟨version, _, rfl, prev, _, rfl, merkle, _, rfl, commitments, _, rfl, time, _, rfl, bits, _, rfl,
      nonce, _, rfl, solution, _, rfl, rfl, rfl⟩

theorem Header.recognizes : read.Recognizes HeaderForm.layout HeaderForm.header := by
  intro taken answer
  simp only [read, Reader.reads_bind]
  constructor
  · rintro ⟨_, ⟨raw, fields⟩, _, rfl, reads, rfl, rfl⟩
    obtain ⟨rfl, parsed⟩ := reads_withBytes.mp reads
    obtain ⟨form, rfl, rfl⟩ := (HeaderFields.recognizes _ _).mp parsed
    exact ⟨form, (List.append_nil _).symm, rfl⟩
  · rintro ⟨form, rfl, rfl⟩
    have reads := (HeaderFields.recognizes _ _).mpr ⟨form, rfl, rfl⟩
    exact ⟨_, _, [], (List.append_nil _).symm, reads_withBytes.mpr ⟨rfl, reads⟩, rfl, rfl⟩

namespace Block

theorem coinbaseScript?_eq_some_iff {transactions : List Transaction} {script : Bytes} :
    coinbaseScript? transactions = some script ↔
      ∃ coinbase later input inputs, transactions.map Transaction.toTransactionBody = coinbase :: later ∧
        coinbase.inputs = input :: inputs ∧ input.script = script := by
  rcases transactions with _ | ⟨⟨body, raw, txid⟩, others⟩
  next => simp [coinbaseScript?]
  next =>
    cases spends : body.inputs <;> simp [coinbaseScript?, spends]

theorem heightOf_eq_ok_iff {transactions : List Transaction} {height : Nat} :
    heightOf transactions = .ok height ↔
      HeightSpelled (transactions.map Transaction.toTransactionBody) height := by
  constructor
  next =>
    intro told
    unfold heightOf at told
    split at told
    · contradiction
    next script found =>
      obtain ⟨coinbase, later, input, inputs, first, spends, rfl⟩ := coinbaseScript?_eq_some_iff.mp found
      split at told
      · contradiction
      next number read =>
        obtain ⟨code, tail, begins, spells⟩ := ScriptNumber.run_eq_ok_iff.mp read
        refine ⟨coinbase, later, input, inputs, code, tail, number, first, spends, begins, spells, ?_⟩
        split at told
        next genesis =>
          obtain rfl := Except.ok.inj told
          exact ⟨by rw [genesis]; decide, (if_pos genesis).symm⟩
        next other =>
          split at told
          · contradiction
          next known =>
            obtain rfl := Except.ok.inj told
            exact ⟨Int.not_lt.mp known, (if_neg other).symm⟩
  next =>
    rintro ⟨coinbase, later, input, inputs, code, tail, number, first, spends, begins, spells, known, rfl⟩
    have found := coinbaseScript?_eq_some_iff.mpr ⟨coinbase, later, input, inputs, first, spends, rfl⟩
    have read : ((ScriptNumber.read "coinbase height").run input.script).1 = .ok number :=
      ScriptNumber.run_eq_ok_iff.mpr ⟨code, tail, begins, spells⟩
    simp only [heightOf, found, read, if_neg (Int.not_lt.mpr known)]
    exact (apply_ite Except.ok _ _ _).symm

theorem checks_ids {txids : Option (List Bytes)} {count : Nat} :
    ((∀ id ∈ txids.bind List.head?, id.length = 32) ∧
      ∀ ids ∈ txids.map List.tail, ∀ id ∈ ids.take count, id.length = 32) ↔
    ∀ ids ∈ txids, ∀ id ∈ ids.take (count + 1), id.length = 32 := by
  rcases txids with _ | _ | ⟨first, others⟩ <;> simp

theorem reads_readTransactions {txids : Option (List Bytes)} {before transactions : List Transaction}
    {count : Nat} {taken : Layout} :
    (readTransactions txids before count).Reads taken transactions ↔
      ∃ forms : List TransactionForm, forms.length = count ∧ taken = forms.flatMap TransactionForm.layout ∧
        (∀ ids ∈ txids, ∀ id ∈ ids.take count, id.length = 32) ∧
        transactions = before.reverse ++
          forms.mapIdx fun index form => form.transaction (txids.bind fun ids => ids[index]?) := by
  induction count generalizing txids before taken with
  | zero =>
    constructor
    · rintro ⟨rfl, rfl⟩
      exact ⟨[], rfl, rfl, by simp, by simp⟩
    · rintro ⟨forms, none, rfl, _, rfl⟩
      obtain rfl := List.length_eq_zero_iff.mp none
      exact ⟨rfl, by simp⟩
  | succ count ih =>
    have first : txids.bind List.head? = txids.bind fun ids => ids[0]? := by
      simp only [List.head?_eq_getElem?]
    have later (index : Nat) :
        ((txids.map List.tail).bind fun ids => ids[index]?) = txids.bind fun ids => ids[index + 1]? := by
      cases txids <;> simp
    simp only [readTransactions, Reader.reads_bind, Transaction.reads_read, ih, later]
    constructor
    · rintro ⟨_, _, _, rfl, ⟨checked, form, rfl, rfl⟩, forms, rfl, rfl, others, rfl⟩
      refine ⟨form :: forms, rfl, rfl, checks_ids.mp ⟨checked, others⟩, ?_⟩
      simp [List.mapIdx_cons, first]
    · rintro ⟨_ | ⟨form, forms⟩, counted, rfl, checked, rfl⟩
      · contradiction
      obtain ⟨checked, others⟩ := checks_ids.mpr checked
      refine ⟨form.layout, _, _, rfl, ⟨checked, form, rfl, rfl⟩, forms, Nat.succ.inj counted, rfl, others, ?_⟩
      simp [List.mapIdx_cons, first]

theorem reads_checkTxidCount {txids : Option (List Bytes)} {count : Nat} {taken : Layout} {answer : Unit} :
    (checkTxidCount txids count).Reads taken answer ↔ taken = [] ∧ ∀ ids ∈ txids, ids.length = count := by
  cases txids with
  | none => simp [checkTxidCount, Reader.Reads]
  | some ids => by_cases whole : ids.length = count <;> simp [checkTxidCount, Reader.Reads, whole]

theorem heightOf_transactions {forms : List TransactionForm} {id : Nat → Option Bytes} {height : Nat} :
    heightOf (forms.mapIdx fun index form => form.transaction (id index)) = .ok height ↔
      HeightSpelled (forms.map TransactionForm.body) height := by
  have bodies : (forms.mapIdx fun index form => form.transaction (id index)).map
      Transaction.toTransactionBody = forms.map TransactionForm.body := by
    apply List.ext_getElem <;> simp [TransactionForm.transaction]
  rw [heightOf_eq_ok_iff, bodies]

theorem reads_read {txids : Option (List Bytes)} {taken : Layout} {block : Block} :
    (read txids none).Reads taken block ↔
      ∃ form : BlockForm, form.layout = taken ∧ form.Gives txids block := by
  have body : (read txids none) = (do
      let header ← Header.read
      let count ← CompactSize.read "FullBlock::tx_count"
      checkTxidCount txids count
      let transactions ← .reserve count Transaction.leastLength (readTransactions txids [] count)
      let height ← Reader.ofExcept (heightOf transactions)
      return ⟨header, transactions, height⟩) := rfl
  rw [body, Header.recognizes.reads_bind]
  constructor
  next =>
    rintro ⟨header, _, rfl, reads⟩
    obtain ⟨⟨_, short⟩, _, rfl, counted⟩ := (recognizes_read _).reads_bind.mp reads
    obtain ⟨_, _, _, rfl, checked, listed⟩ := Reader.reads_bind.mp counted
    obtain ⟨rfl, idForEach⟩ := reads_checkTxidCount.mp checked
    obtain ⟨_, _, _, rfl, each, told⟩ := Reader.reads_bind.mp listed
    obtain ⟨forms, rfl, rfl, ids, rfl⟩ := reads_readTransactions.mp each
    obtain ⟨_, height, _, rfl, answered, rfl, rfl⟩ := Reader.reads_bind.mp told
    obtain ⟨rfl, known⟩ := reads_ofExcept.mp answered
    refine ⟨⟨header, ⟨forms, short⟩⟩, rfl, ?_⟩
    exact {
      idForEach := idForEach
      ids := fun given member id among =>
        ids given member id (by rwa [List.take_of_length_le (Nat.le_of_eq (idForEach given member))])
      fields := rfl
      rewritten := header.write_fields
      raw := rfl
      hash := rfl
      transactions := rfl
      height := heightOf_transactions.mp known }
  next =>
    rintro ⟨⟨header, ⟨forms, short⟩⟩, rfl, gives⟩
    obtain ⟨⟨fields, raw, hash⟩, transactions, height⟩ := block
    obtain ⟨idForEach, ids, rfl, _, rfl, rfl, rfl, spelled⟩ := gives
    have among : ∀ given ∈ txids, ∀ id ∈ given.take forms.length, id.length = 32 :=
      fun given member id taken => ids given member id (List.mem_of_mem_take taken)
    refine ⟨header, _, rfl, (recognizes_read _).reads_bind.mpr ⟨⟨_, short⟩, _, rfl, ?_⟩⟩
    refine Reader.reads_bind.mpr ⟨[], (), _, rfl, reads_checkTxidCount.mpr ⟨rfl, idForEach⟩, ?_⟩
    refine Reader.reads_bind.mpr
      ⟨_, _, _, rfl, reads_readTransactions.mpr ⟨forms, rfl, rfl, among, rfl⟩, ?_⟩
    exact Reader.reads_bind.mpr ⟨[], _, [], rfl, reads_ofExcept.mpr ⟨rfl, heightOf_transactions.mpr spelled⟩, rfl, rfl⟩

/-- The input is parsed exactly where it begins with the encoding of a block that tells its height,
and with an id for each of its transactions, or none. -/
theorem parse_ok_iff_encoded_block (data : Bytes) (txids : Option (List Bytes)) :
    (∀ block rest, (read txids none).parse data = .ok (block, rest) ↔
      ∃ form : BlockForm, data = form.bytes ++ rest ∧ form.Gives txids block) ∧
    ∀ (form other : BlockForm) (rest left : Bytes),
      data = form.bytes ++ rest → data = other.bytes ++ left → form = other ∧ rest = left := by
  constructor
  next =>
    intro block rest
    rw [Reader.parse_eq_ok_iff]
    constructor
    next =>
      rintro ⟨taken, reads, rfl⟩
      obtain ⟨form, rfl, gives⟩ := reads_read.mp reads
      exact ⟨form, rfl, gives⟩
    next =>
      rintro ⟨form, rfl, gives⟩
      exact ⟨form.layout, reads_read.mpr ⟨form, rfl, gives⟩, rfl⟩
  next =>
    intro form other rest left first second
    obtain ⟨rests, forms⟩ := BlockForm.unambiguous (first.symm.trans second)
    exact ⟨forms, rests⟩

end Block

end CompactChain
