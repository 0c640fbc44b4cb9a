import CompactChain.Proofs.Cache.Opening
import CompactChain.Proofs.Session.AnyDisk
import CompactChain.Proofs.Store.Ledger

set_option autoImplicit false

namespace CompactChain

open Store (HeldChain Ledger Outcome Question Reply Script)

inductive Call where
  | add (height : Nat) (block : CompactBlock)
  | reorg (height : Nat)
  | ask (question : Question)

def Call.Short : Call → Prop
  | .add _ block => block.encode.length < 0x100000000
  | _ => True

namespace Store.Ledger

def call (ledger : Ledger) : Call → Ledger × Reply
  | .add height block =>
    match ledger.add height block with
    | .error error => (ledger, .answer (.error error))
    | .ok after => (after, .answer (.ok ()))
  | .reorg height => (ledger.reorg height, .answer (.ok ()))
  | .ask question => (ledger, ledger.reply question)

def replies (ledger : Ledger) : List Call → List Reply
  | [] => []
  | call :: later =>
    let (after, reply) := ledger.call call
    reply :: after.replies later

end Store.Ledger

namespace Session

def call (session : Session) : Call → Option (Session × Reply)
  | .add height block =>
    (session.run .perfect fun chain => chain.add height block).map fun (after, answer, _) =>
      (after, .answer answer)
  | .reorg height =>
    (session.run .perfect fun chain => chain.reorg height).map fun (after, answer, _) =>
      (after, .answer answer)
  | .ask question => session.cache.map fun cache => (session, cache.chain.reply question)

def replies (session : Session) : List Call → Option (List Reply)
  | [] => some []
  | call :: later =>
    match session.call call with
    | none => none
    | some (after, reply) => (after.replies later).map fun replies => reply :: replies

def Keeps (session : Session) (ledger : Ledger) : Prop :=
  ∃ cache, session.cache = some cache ∧ cache.chain.Sound ∧ cache.chain.ledger = ledger

theorem Keeps.run {session : Session} {cache : Cache} {ledger : Ledger} {α : Type}
    (operation : HeldChain → Script (Outcome α)) (held : session.cache = some cache)
    (sound : (operation cache.chain).result.chain.Sound)
    (same : (operation cache.chain).result.chain.ledger = ledger) :
    ∃ after warnings, session.run .perfect operation =
        some (after, (operation cache.chain).result.answer, warnings) ∧ after.Keeps ledger := by
  simp only [Session.run, held, Option.map_some, Cache.run, Script.run_perfect_eq]
  exact ⟨_, _, rfl, _, rfl, sound, same⟩

theorem Keeps.call {session : Session} {ledger : Ledger} (keeps : session.Keeps ledger)
    {call : Call} (short : call.Short) :
    ∃ after, session.call call = some (after, (ledger.call call).2) ∧
      after.Keeps (ledger.call call).1 := by
  obtain ⟨cache, held, sound, rfl⟩ := keeps
  cases call with
  | add height block =>
    obtain ⟨answer, same⟩ := sound.add_ledger height short
    have stays := (HeldChain.add_ensures sound height block).result.sound
    obtain ⟨after, warnings, ran, keeps⟩ :=
      Keeps.run (fun chain => chain.add height block) held stays same
    simp only [Session.call, ran, Option.map_some, answer, Ledger.call]
    cases added : cache.chain.ledger.add height block with
    | error error => exact ⟨after, rfl, by simpa [added, Except.toOption] using keeps⟩
    | ok next => exact ⟨after, rfl, by simpa [added, Except.toOption] using keeps⟩
  | reorg height =>
    obtain ⟨answer, same⟩ := sound.reorg_ledger height
    have stays := (HeldChain.reorg_ensures sound height).result.sound
    obtain ⟨after, warnings, ran, keeps⟩ :=
      Keeps.run (fun chain => chain.reorg height) held stays same
    simp only [Session.call, ran, Option.map_some, answer, Ledger.call]
    exact ⟨after, rfl, keeps⟩
  | ask question =>
    simp only [Session.call, held, Option.map_some, sound.reply_ledger, Ledger.call]
    exact ⟨session, rfl, cache, held, sound, rfl⟩

theorem Keeps.replies {session : Session} {ledger : Ledger} (keeps : session.Keeps ledger)
    {calls : List Call} (short : ∀ call ∈ calls, call.Short) :
    session.replies calls = some (ledger.replies calls) := by
  induction calls generalizing session ledger with
  | nil => rfl
  | cons call later ih =>
    obtain ⟨after, answered, keeps⟩ := keeps.call (short call List.mem_cons_self)
    have rest := ih keeps fun other member => short other (List.mem_cons_of_mem _ member)
    simp only [Session.replies, answered, rest, Option.map_some, Ledger.replies]

/-- A cache opened in an empty directory answers as a ledger that begins with no blocks. -/
theorem replies_after_opening (settings : Settings) (session : Session)
    (vacant : Cache.Vacant settings session.tree)
    (opened : (session.openCache settings).2.1 = .ok ()) (calls : List Call)
    (short : ∀ call ∈ calls, call.Short) :
    (session.openCache settings).1.replies calls =
      some (Ledger.replies ⟨settings.startHeight, []⟩ calls) := by
  have opens := vacant.blank.openIn
  apply Keeps.replies _ short
  unfold openCache at opened ⊢
  simp only at opened ⊢
  split at opened
  next cache there =>
    have low := Settings.startHeight_lt (Cache.check_of_openIn there)
    simp only [Cache.OpensEmpty, there] at opens
    obtain ⟨rfl, _⟩ := opens
    exact ⟨_, rfl, HeldChain.empty_sound low, rfl⟩
  · contradiction

def sampleCalls : List Call :=
  [.add 5 (sampleBlock 5), .add 6 (sampleBlock 6), .add 7 (sampleBlock 7), .add 9 (sampleBlock 9),
    .ask .latestHash, .add 6 (sampleBlock 5), .add 6 { sampleBlock 6 with time := 1 },
    .ask (.block 7), .ask .latestHeight, .reorg 3, .ask .isEmpty]

theorem replies_to_sample : ((⟨.empty, none⟩ : Session).openCache sampleSettings).2.1 = .ok () ∧
    ((⟨.empty, none⟩ : Session).openCache sampleSettings).1.replies sampleCalls =
      some (Ledger.replies ⟨5, []⟩ sampleCalls) := by
  have opened : ((⟨.empty, none⟩ : Session).openCache sampleSettings).2.1 = .ok () := by rfl
  have short : ∀ call ∈ sampleCalls, call.Short := by
    simp [sampleCalls, Call.Short]
    decide +kernel
  exact ⟨opened, replies_after_opening sampleSettings _ (Cache.vacant_empty sampleSettings) opened
    sampleCalls short⟩

end Session

end CompactChain
