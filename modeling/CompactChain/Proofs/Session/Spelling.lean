import CompactChain.Proofs.Session.Ingestion
import CompactChain.Proofs.Text.Blank

set_option autoImplicit false

namespace CompactChain

open Hex (Spelled)
open Store (HeldChain Medium)

namespace Block

variable {text : String} {data rest : Bytes} {txids : Option (List Bytes)} {block : Block}

theorem ofHex_of_spelled (spelled : Spelled text data) :
    ofHex text txids = ((read txids none).parse data).bind fun (block, rest) =>
      if rest.isEmpty then .ok block else .error (.data (.trailingBytes rest.length)) := by
  simp only [ofHex, Hex.decode_trim_eq_ok_iff.mpr spelled]
  cases (read txids none).parse data <;> rfl

theorem ofHex_of_not_spelled (strange : ∀ data, ¬ Spelled text data) :
    ∃ cause, ofHex text txids = .error (.hex cause) := by
  rw [ofHex]
  cases decoded : Hex.decode (Text.trim text.toList) with
  | ok data => exact absurd (Hex.decode_trim_eq_ok_iff.mp decoded) (strange data)
  | error cause => exact ⟨cause, rfl⟩

theorem ofHex_eq_ok_iff (spelled : Spelled text data) :
    ofHex text txids = .ok block ↔ (read txids none).parse data = .ok (block, []) := by
  rw [ofHex_of_spelled spelled]
  cases (read txids none).parse data with
  | error error => simp [Except.bind]
  | ok parsed =>
    obtain ⟨other, rest⟩ := parsed
    cases rest <;> simp [Except.bind]

end Block

namespace Store.HeldChain

variable {text : String} {data : Bytes} {ids : List Bytes} {treeSize : UInt32} {height : Nat}
  {compact : CompactBlock}

theorem compactOfRaw_eq_ok_iff (spelled : Spelled text data) :
    compactOfRaw data ids treeSize = .ok (height, compact) ↔
      ∃ block, Block.ofHex text (some ids) = .ok block ∧ block.toCompact treeSize = .ok compact ∧
        block.height = height := by
  simp only [Block.ofHex_eq_ok_iff spelled, compactOfRaw]
  cases (Block.read (some ids) none).parse data with
  | error error => simp
  | ok parsed =>
    obtain ⟨block, rest⟩ := parsed
    cases rest with
    | cons byte later => simp
    | nil =>
      cases compacted : block.toCompact treeSize <;> simp [compacted, and_comm]

end Store.HeldChain

namespace Session

variable {session after : Session} {medium : Medium} {text : String} {data : Bytes} {ids : List Bytes}
  {treeSize : UInt32} {height : Nat} {warnings : List Store.Warning}

theorem run_addRaw_error {error : Store.Error}
    (refused : HeldChain.compactOfRaw data ids treeSize = .error error) :
    session.run medium (fun chain => chain.addRaw data ids treeSize) ≠
      some (after, .ok height, warnings) := by
  intro ran
  cases held : session.cache with
  | none =>
    rw [run, held] at ran
    contradiction
  | some cache =>
    simp only [run, held, Option.map_some, Cache.run, HeldChain.addRaw, refused] at ran
    have answered : Except.error error = Except.ok height := congrArg (fun ran => ran.2.1) (Option.some.inj ran)
    contradiction

theorem run_map_eq_some_iff {ran : Option (Session × Except Store.Error Unit × List Store.Warning)}
    {told : Nat} :
    ran.map (fun (after, answer, warnings) => (after, answer.map fun _ => told, warnings)) =
        some (after, .ok height, warnings) ↔
      told = height ∧ ran = some (after, .ok (), warnings) := by
  cases ran with
  | none => simp
  | some result =>
    obtain ⟨other, answer, others⟩ := result
    cases answer <;> simp [Except.map, and_left_comm]

theorem run_addRaw_iff (spelled : Spelled text data) :
    session.run medium (fun chain => chain.addRaw data ids treeSize) = some (after, .ok height, warnings) ↔
      ∃ block compact, Block.ofHex text (some ids) = .ok block ∧ block.toCompact treeSize = .ok compact ∧
        block.height = height ∧
        session.run medium (fun chain => chain.add height compact) = some (after, .ok (), warnings) := by
  cases raw : HeldChain.compactOfRaw data ids treeSize with
  | error error =>
    constructor
    next => exact fun ran => absurd ran (run_addRaw_error raw)
    next =>
      intro ⟨block, compact, read, compacted, same, _⟩
      rw [(HeldChain.compactOfRaw_eq_ok_iff spelled).mpr ⟨block, read, compacted, same⟩] at raw
      contradiction
  | ok found =>
    obtain ⟨told, compact⟩ := found
    rw [run_addRaw session medium raw, run_map_eq_some_iff]
    constructor
    next =>
      intro ⟨same, ran⟩
      obtain ⟨block, read, compacted, own⟩ := (HeldChain.compactOfRaw_eq_ok_iff spelled).mp raw
      exact ⟨block, compact, read, compacted, own.trans same, same ▸ ran⟩
    next =>
      intro ⟨block, other, read, compacted, own, ran⟩
      have again := (HeldChain.compactOfRaw_eq_ok_iff spelled).mpr ⟨block, read, compacted, own⟩
      obtain ⟨rfl, rfl⟩ := Prod.mk.inj (Except.ok.inj (raw.symm.trans again))
      exact ⟨rfl, ran⟩

end Session

/-- A text that spells bytes is read as they are, with nothing left over; no other text is read. So a cache, in
whatever state it is, takes a raw block exactly where it takes the compact form of what a spelling of it is
read as, with the same height and to the same state. -/
theorem spelled_blocks_alike (text : String) :
    (∀ data txids, Spelled text data →
      (∀ block, (Block.read txids none).parse data = .ok (block, []) →
        Block.ofHex text txids = .ok block) ∧
      (∀ error, (Block.read txids none).parse data = .error error →
        Block.ofHex text txids = .error error) ∧
      ∀ block rest, (Block.read txids none).parse data = .ok (block, rest) → rest ≠ [] →
        Block.ofHex text txids = .error (.data (.trailingBytes rest.length))) ∧
    ((∀ data, ¬ Spelled text data) → ∀ txids, ∃ cause, Block.ofHex text txids = .error (.hex cause)) ∧
    ∀ data ids treeSize, Spelled text data → ∀ (session after : Session) medium height warnings,
      session.run medium (fun chain => chain.addRaw data ids treeSize) =
          some (after, .ok height, warnings) ↔
        ∃ block compact, Block.ofHex text (some ids) = .ok block ∧
          block.toCompact treeSize = .ok compact ∧ block.height = height ∧
          session.run medium (fun chain => chain.add height compact) = some (after, .ok (), warnings) := by
  refine ⟨fun data txids spelled => ⟨?whole, ?failed, ?left⟩, ?strange, ?alike⟩
  case whole => exact fun block parsed => (Block.ofHex_eq_ok_iff spelled).mpr parsed
  case failed =>
    intro error refused
    rw [Block.ofHex_of_spelled spelled, refused]
    rfl
  case left =>
    intro block rest parsed some
    rw [Block.ofHex_of_spelled spelled, parsed]
    exact if_neg (by simpa using some)
  case strange => exact fun strange txids => Block.ofHex_of_not_spelled strange
  case alike =>
    intro data ids treeSize spelled session after medium height warnings
    exact Session.run_addRaw_iff spelled

namespace Session

def sampleText (data : Bytes) : String :=
  String.ofList ([' '] ++ (Hex.encode data).map Char.toUpper ++ ['\n'])

theorem sampleText_spelled (data : Bytes) : Spelled (sampleText data) data := by
  have lower : ∀ value < 16, (Hex.digit value).toUpper.toLower = Hex.digit value := by decide
  refine ⟨[' '], _, ['\n'], String.toList_ofList, by decide, by decide, ?_⟩
  rw [Hex.encode_eq_map, List.map_map, List.map_map]
  exact List.map_congr_left fun value member => lower value (Hex.nibbles_lt member)

theorem spelled_sample_alike : ∃ after warnings block compact,
    let session := sampleEvents.foldl Session.after ⟨damagedTree, none⟩
    Spelled (sampleText sampleForm.bytes) sampleForm.bytes ∧
      Spelled (sampleText (sampleForm.bytes ++ [1])) (sampleForm.bytes ++ [1]) ∧
      Block.ofHex (sampleText (sampleForm.bytes ++ [1])) (some sampleIds) =
        .error (.data (.trailingBytes 1)) ∧
      session.run .perfect (fun chain => chain.addRaw sampleForm.bytes sampleIds 3) =
        some (after, .ok 6, warnings) ∧
      Block.ofHex (sampleText sampleForm.bytes) (some sampleIds) = .ok block ∧
      block.toCompact 3 = .ok compact ∧ block.height = 6 ∧
      session.run .perfect (fun chain => chain.add 6 compact) = some (after, .ok (), warnings) := by
  have taken : ((sampleEvents.foldl Session.after ⟨damagedTree, none⟩).run .perfect
      fun chain => chain.addRaw sampleForm.bytes sampleIds 3).map (fun ran => ran.2.1) =
        some (.ok 6) := by
    decide +kernel
  obtain ⟨⟨after, answer, warnings⟩, ran, answered⟩ := Option.map_eq_some_iff.mp taken
  obtain rfl : answer = .ok 6 := answered
  obtain ⟨form, whole, gives⟩ := sampleRaw_encoded
  have longer : (Block.read (some sampleIds) none).parse (sampleForm.bytes ++ [1]) =
      .ok (sampleRaw, [1]) := by
    refine Reader.parse_eq_ok_iff.mpr ⟨form.layout, Block.reads_read.mpr ⟨form, rfl, gives⟩, ?_⟩
    rw [whole]
    rfl
  have spelled := sampleText_spelled sampleForm.bytes
  have more := sampleText_spelled (sampleForm.bytes ++ [1])
  have left := ((spelled_blocks_alike _).1 _ (some sampleIds) more).2.2 _ _ longer (by decide)
  obtain ⟨block, compact, read, compacted, own, added⟩ :=
    ((spelled_blocks_alike _).2.2 _ sampleIds 3 spelled _ after .perfect 6 warnings).mp ran
  exact ⟨after, warnings, block, compact, spelled, more, left, ran, read, compacted, own, added⟩

end Session

end CompactChain
