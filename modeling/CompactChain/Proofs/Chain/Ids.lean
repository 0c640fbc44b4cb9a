import CompactChain.Proofs.Bytes.Hex
import CompactChain.Proofs.Chain.Projection

set_option autoImplicit false

namespace CompactChain

namespace Txid

def IsShown (text : String) : Prop :=
  text.length = 64 ∧ ∀ c ∈ text.toList, Hex.IsDigit c

theorem toLower_eq_display_iff {text : String} {id : Bytes} :
    text.toLower = display id ↔ text.toList.map Char.toLower = Hex.encode id.reverse := by
  have lower : text.toLower.toList = text.toList.map Char.toLower := String.toList_map
  rw [← String.toList_inj, lower, display, String.toList_ofList]

theorem ofDisplay_eq_ok_iff {text : String} {id : Bytes} :
    ofDisplay text = .ok id ↔ id.length = 32 ∧ text.toLower = display id := by
  rw [toLower_eq_display_iff, ← Hex.decode_eq_ok_iff, ofDisplay]
  cases Hex.decode text.toList with
  | error error => simp
  | ok bytes =>
    have reversed : bytes.reverse = id ↔ bytes = id.reverse := List.reverse_eq_iff
    by_cases whole : bytes.length = 32
    next =>
      simp only [check, whole, if_true, Except.map, Except.ok.injEq, reversed]
      constructor
      next =>
        intro same
        rw [same, List.length_reverse] at whole
        exact ⟨whole, same⟩
      next => exact And.right
    next =>
      simp only [check, whole, if_false, Except.map, reduceCtorEq, Except.ok.injEq, false_iff, not_and]
      intro counted same
      rw [same, List.length_reverse] at whole
      exact whole counted

theorem toLower_display (id : Bytes) : (display id).toLower = display id := by
  rw [toLower_eq_display_iff, display, String.toList_ofList, Hex.map_toLower_encode]

theorem ofDisplay_display {id : Bytes} (whole : id.length = 32) : ofDisplay (display id) = .ok id :=
  ofDisplay_eq_ok_iff.mpr ⟨whole, toLower_display id⟩

theorem exists_ofDisplay_iff {text : String} : (∃ id, ofDisplay text = .ok id) ↔ IsShown text := by
  simp only [ofDisplay_eq_ok_iff, toLower_eq_display_iff]
  constructor
  next =>
    intro ⟨id, whole, spelled⟩
    have counted := congrArg List.length spelled
    rw [List.length_map, String.length_toList, Hex.length_encode, List.length_reverse, whole] at counted
    exact ⟨counted, Hex.isDigit_of_spelled spelled⟩
  next =>
    intro ⟨counted, digits⟩
    have even : text.toList.length % 2 = 0 := by rw [String.length_toList, counted]
    obtain ⟨bytes, spelled⟩ := Hex.exists_spelled text.toList even digits
    have doubled := congrArg List.length spelled
    rw [List.length_map, String.length_toList, Hex.length_encode, counted] at doubled
    exact ⟨bytes.reverse, by rw [List.length_reverse]; omega, by rw [List.reverse_reverse, spelled]⟩

theorem ofDisplays_eq_ok_iff {texts : List String} {ids : List Bytes} :
    ofDisplays texts = .ok ids ↔ List.Forall₂ (fun text id => ofDisplay text = .ok id) texts ids := by
  rw [ofDisplays]
  induction texts generalizing ids with
  | nil => cases ids <;> simp [pure, Except.pure]
  | cons text later ih =>
    rw [List.mapM_cons]
    cases first : ofDisplay text with
    | error error => cases ids <;> simp [bind, Except.bind, first]
    | ok id =>
      cases others : later.mapM ofDisplay <;> cases ids <;>
        simp [bind, Except.bind, pure, Except.pure, ← ih, first, others]

theorem exists_ofDisplays_iff {texts : List String} :
    (∃ ids, ofDisplays texts = .ok ids) ↔ ∀ text ∈ texts, IsShown text := by
  simp only [ofDisplays_eq_ok_iff, ← exists_ofDisplay_iff]
  induction texts with
  | nil => simp
  | cons text later ih =>
    simp only [List.forall_mem_cons, ← ih, List.forall₂_cons_left_iff]
    constructor
    next => exact fun ⟨ids, id, others, first, rest, _⟩ => ⟨⟨id, first⟩, others, rest⟩
    next => exact fun ⟨⟨id, first⟩, others, rest⟩ => ⟨_, id, others, first, rest, rfl⟩

theorem ofDisplays_first {front later : List String} {bad : String} {error : ParseError}
    (before : ∀ text ∈ front, IsShown text) (refused : ofDisplay bad = .error error) :
    ofDisplays (front ++ bad :: later) = .error error := by
  rw [ofDisplays]
  induction front with
  | nil =>
    rw [List.nil_append, List.mapM_cons, refused]
    rfl
  | cons text front ih =>
    obtain ⟨id, known⟩ := exists_ofDisplay_iff.mpr (before text List.mem_cons_self)
    have rest := ih fun other member => before other (List.mem_cons_of_mem text member)
    rw [List.cons_append, List.mapM_cons, known, rest]
    rfl

theorem ofDisplays_lower {texts : List String} {ids : List Bytes} (decoded : ofDisplays texts = .ok ids) :
    texts.map String.toLower = ids.map display := by
  rw [← List.forall₂_eq_eq_eq, List.forall₂_map_left_iff, List.forall₂_map_right_iff]
  exact (ofDisplays_eq_ok_iff.mp decoded).imp fun _ _ known => (ofDisplay_eq_ok_iff.mp known).2

theorem ofDisplays_displays {ids : List Bytes} (whole : ∀ id ∈ ids, id.length = 32) :
    ofDisplays (ids.map display) = .ok ids := by
  rw [ofDisplays_eq_ok_iff, List.forall₂_map_left_iff, List.forall₂_same]
  exact fun id member => ofDisplay_display (whole id member)

end Txid

variable {block : Block} {form : BlockForm} {ids : List Bytes} {texts : List String}

theorem BlockForm.Gives.map_txid (gives : form.Gives (some ids) block) :
    block.transactions.map Transaction.txid = ids.map some := by
  have counted := gives.idForEach ids rfl
  rw [gives.transactions]
  apply List.ext_getElem
  case hl => simp [counted]
  case h =>
    intro index within there
    rw [List.length_map] at there
    simp [TransactionForm.transaction, there]

namespace Block

structure ShowsTexts (block : Block) (texts : List String) : Prop where
  shown : block.transactions.map (fun tx => tx.txid.map Txid.display) =
    texts.map fun text => some text.toLower
  compacted : ∀ treeSize, ∃ compact, block.toCompact treeSize = .ok compact ∧
    List.Forall₂ (fun entry tx => tx.index.toNat = entry.2 ∧ ∃ text bytes, texts[entry.2]? = some text ∧
      Hex.decode text.toList = .ok bytes ∧ tx.hash = bytes.reverse) block.kept compact.transactions

theorem exists_gives {txids : Option (List Bytes)} {data rest : Bytes}
    (parsed : (read txids none).parse data = .ok (block, rest)) :
    ∃ form : BlockForm, data = form.bytes ++ rest ∧ form.Gives txids block := by
  obtain ⟨taken, reads, spelled⟩ := Reader.parse_eq_ok_iff.mp parsed
  obtain ⟨form, rfl, gives⟩ := reads_read.mp reads
  exact ⟨form, spelled, gives⟩

theorem map_display (gives : form.Gives (some ids) block) :
    block.transactions.map (fun tx => tx.txid.map Txid.display) = (ids.map Txid.display).map some := by
  have shown := congrArg (List.map (Option.map Txid.display)) gives.map_txid
  rw [List.map_map, List.map_map] at shown
  rw [List.map_map]
  exact shown

theorem text_of_kept (gives : form.Gives (some ids) block) (decoded : Txid.ofDisplays texts = .ok ids)
    {entry : Transaction × Nat} (member : entry ∈ block.kept) :
    ∃ text id, texts[entry.2]? = some text ∧ entry.1.txid = some id ∧
      Hex.decode text.toList = .ok id.reverse := by
  obtain ⟨found, -⟩ := mem_kept.mp member
  have given : (ids.map some)[entry.2]? = some entry.1.txid := by
    rw [← gives.map_txid, List.getElem?_map, found]
    rfl
  rw [List.getElem?_map] at given
  obtain ⟨id, there, known⟩ := Option.map_eq_some_iff.mp given
  have shown : (texts.map String.toLower)[entry.2]? = some (Txid.display id) := by
    rw [Txid.ofDisplays_lower decoded, List.getElem?_map, there]
    rfl
  rw [List.getElem?_map] at shown
  obtain ⟨text, among, lower⟩ := Option.map_eq_some_iff.mp shown
  exact ⟨text, id, among, known.symm, Hex.decode_eq_ok_iff.mpr (Txid.toLower_eq_display_iff.mp lower)⟩

theorem showsTexts (gives : form.Gives (some ids) block) (decoded : Txid.ofDisplays texts = .ok ids) :
    block.ShowsTexts texts where
  shown := by
    rw [map_display gives, ← Txid.ofDisplays_lower decoded, List.map_map]
    rfl
  compacted treeSize := by
    have identified := EncodedIn.identified ⟨form, rfl, gives⟩
    refine ⟨_, identified.toCompact_eq treeSize, ?_⟩
    simp only [compactWith, List.forall₂_map_right_iff, List.forall₂_same]
    intro entry member
    obtain ⟨text, id, there, known, spelled⟩ := text_of_kept gives decoded member
    refine ⟨compactTx_index gives member, text, id.reverse, there, spelled, ?_⟩
    rw [compactTx, known, List.reverse_reverse]
    rfl

/-- Texts give ids exactly where each of them is one that an id may be shown as; otherwise the first that is not
tells the error. What is shown of a block that was read with such ids is these texts in lower case, and what is
shown of any block that was read with ids gives these ids again. -/
theorem ids_through_block :
    (∀ texts, (∃ ids, Txid.ofDisplays texts = .ok ids) ↔ ∀ text ∈ texts, Txid.IsShown text) ∧
    (∀ front bad later, (∀ text ∈ front, Txid.IsShown text) → ¬ Txid.IsShown bad →
      ∃ error, Txid.ofDisplay bad = .error error ∧
        Txid.ofDisplays (front ++ bad :: later) = .error error) ∧
    (∀ texts ids data block rest, Txid.ofDisplays texts = .ok ids →
      (read (some ids) none).parse data = .ok (block, rest) → block.ShowsTexts texts) ∧
    ∀ ids data block rest, (read (some ids) none).parse data = .ok (block, rest) →
      ∃ texts, block.transactions.map (fun tx => tx.txid.map Txid.display) = texts.map some ∧
        Txid.ofDisplays texts = .ok ids := by
  refine ⟨fun _ => Txid.exists_ofDisplays_iff, ?first, ?shown, ?again⟩
  case first =>
    intro front bad later before strange
    cases refused : Txid.ofDisplay bad with
    | ok id => exact absurd (Txid.exists_ofDisplay_iff.mp ⟨id, refused⟩) strange
    | error error => exact ⟨error, rfl, Txid.ofDisplays_first before refused⟩
  case shown =>
    intro texts ids data block rest decoded parsed
    obtain ⟨form, -, gives⟩ := exists_gives parsed
    exact showsTexts gives decoded
  case again =>
    intro ids data block rest parsed
    obtain ⟨form, -, gives⟩ := exists_gives parsed
    exact ⟨ids.map Txid.display, map_display gives, Txid.ofDisplays_displays (gives.ids ids rfl)⟩

theorem ids_through_mixed_block :
    let text := String.ofList ('A' :: 'b' :: List.replicate 62 '0')
    let short := String.ofList (List.replicate 63 '0')
    let id : Bytes := List.replicate 31 0 ++ [0xab]
    let ids := [id, id, id]
    Txid.ofDisplays [text, text, text] = .ok ids ∧
      (read (some ids) none).parse (mixedForm.bytes ++ [1]) = .ok (mixedBlock (some ids), [1]) ∧
      (mixedBlock (some ids)).ShowsTexts [text, text, text] ∧
      (∃ texts, (mixedBlock (some ids)).transactions.map (fun tx => tx.txid.map Txid.display) =
        texts.map some ∧ Txid.ofDisplays texts = .ok ids) ∧
      Txid.IsShown text ∧ ¬ Txid.IsShown short ∧
      ∃ error, Txid.ofDisplay short = .error error ∧
        Txid.ofDisplays ([text] ++ short :: [text]) = .error error := by
  intro text short id ids
  have decoded : Txid.ofDisplay text = .ok id := by
    refine Txid.ofDisplay_eq_ok_iff.mpr ⟨by decide, Txid.toLower_eq_display_iff.mpr ?_⟩
    rw [String.toList_ofList]
    decide
  have all : Txid.ofDisplays [text, text, text] = .ok ids :=
    Txid.ofDisplays_eq_ok_iff.mpr (.cons decoded (.cons decoded (.cons decoded .nil)))
  have parsed : (read (some ids) none).parse (mixedForm.bytes ++ [1]) = .ok (mixedBlock (some ids), [1]) :=
    parse_mixed (by rintro _ ⟨⟩; rfl) (by rintro _ ⟨⟩; decide) [1]
  have whole : Txid.IsShown text := Txid.exists_ofDisplay_iff.mp ⟨id, decoded⟩
  have lacking : ¬ Txid.IsShown short := by
    intro ⟨counted, _⟩
    rw [String.length_ofList, List.length_replicate] at counted
    omega
  obtain ⟨-, first, shown, again⟩ := ids_through_block
  refine ⟨all, parsed, shown _ _ _ _ _ all parsed, again _ _ _ _ parsed, whole, lacking, ?_⟩
  exact first [text] short [text] (by simpa using whole) lacking

end Block

end CompactChain
