import CompactChain.Proofs.Store.Preservation
import CompactChain.Session

set_option autoImplicit false

namespace CompactChain

open Store (HeldChain Medium Outcome Script)

namespace Cache

structure Sound (cache : Cache) : Prop where
  checked : cache.settings.check = .ok ()
  chain : cache.chain.Sound
  first : cache.chain.first = cache.settings.startHeight

section Opening

variable {medium : Medium} {tree : Tree} {settings : Settings} {cache : Cache}

theorem ofHandles_sound {handles : Handles} (checked : settings.check = .ok ())
    (opened : (ofHandles medium tree settings handles).answer = .ok cache) : cache.Sound := by
  let files := handles.files tree
  have sound := Store.recover_sound (Settings.startHeight_lt checked) files
  have settled := (HeldChain.settle_ensures sound settings.syncFrom).run medium files
  unfold ofHandles at opened
  simp only [Store.Recovered.settle] at opened
  split at opened
  next chain same =>
    obtain rfl := Except.ok.inj opened
    have continues := settled chain same
    exact ⟨checked, continues.sound, continues.first⟩
  · contradiction

theorem openThere_sound (checked : settings.check = .ok ())
    (opened : (openThere medium tree settings).answer = .ok cache) : cache.Sound := by
  unfold openThere at opened
  split at opened
  · exact ofHandles_sound checked opened
  · simp only at opened
    split at opened
    · contradiction
    · exact ofHandles_sound checked opened

theorem openIn_sound (opened : (openIn medium tree settings).answer = .ok cache) : cache.Sound := by
  unfold openIn at opened
  split at opened
  · contradiction
  next checked =>
    split at opened
    · contradiction
    · exact openThere_sound checked opened

end Opening

end Cache

namespace Session

/-- What may happen to a session. The medium of a step decides which of its changes to the files fail;
from outside, the tree and what the open files lead to may become anything. -/
inductive Event where
  | opening (settings : Settings) (medium : Medium)
  | closing
  | add (height : Nat) (block : CompactBlock) (medium : Medium)
  | addRaw (data : Bytes) (txids : List Bytes) (treeSize : UInt32) (medium : Medium)
  | reorg (height : Nat) (medium : Medium)
  | outside (tree : Tree) (handles : Handles)

def ran {α : Type} (session : Session) (medium : Medium)
    (operation : HeldChain → Script (Outcome α)) : Session :=
  (session.run medium operation).elim session Prod.fst

def after (session : Session) : Event → Session
  | .opening settings medium =>
    let opened := Cache.openIn medium session.tree settings
    ⟨opened.tree, opened.answer.toOption⟩
  | .closing => session.close
  | .add height block medium => session.ran medium fun chain => chain.add height block
  | .addRaw data txids treeSize medium =>
    session.ran medium fun chain => chain.addRaw data txids treeSize
  | .reorg height medium => session.ran medium fun chain => chain.reorg height
  | .outside tree handles =>
    ⟨tree, session.cache.map fun cache => { cache with handles := handles }⟩

def Event.Own : Event → Prop
  | .outside _ _ => False
  | _ => True

def Holds (good : Tree → Cache → Prop) (session : Session) : Prop :=
  ∀ cache, session.cache = some cache → good session.tree cache

structure Kept (good : Tree → Cache → Prop) : Prop where
  opened : ∀ {medium : Medium} {tree : Tree} {settings : Settings} {cache : Cache},
    (Cache.openIn medium tree settings).answer = .ok cache →
      good (Cache.openIn medium tree settings).tree cache
  ran : ∀ {α : Type} {tree : Tree} {cache : Cache} {operation : HeldChain → Script (Outcome α)},
    good tree cache → (cache.chain.Sound →
      (operation cache.chain).Ensures fun outcome => cache.chain.Continues outcome.chain) →
    ∀ medium, let after := cache.run medium tree operation
      good after.1 after.2.1

-- What neither the tree nor the open files have to do with.
def Aloof (good : Tree → Cache → Prop) : Prop :=
  ∀ (before after : Tree) (cache : Cache) (handles : Handles), good before cache →
    good after { cache with handles := handles }

section Kept

variable {good : Tree → Cache → Prop} (kept : Kept good) {session : Session}

include kept

theorem Kept.after_ran {α : Type} (holds : session.Holds good) (medium : Medium)
    {operation : HeldChain → Script (Outcome α)}
    (continues : ∀ chain : HeldChain, chain.Sound →
      (operation chain).Ensures fun outcome => chain.Continues outcome.chain) :
    (session.ran medium operation).Holds good := by
  cases before : session.cache with
  | none => simpa [Session.ran, run, before] using holds
  | some old =>
    simp only [Session.ran, run, before, Option.map_some, Option.elim_some]
    rintro _ ⟨⟩
    exact kept.ran (holds old before) (continues old.chain) medium

theorem Kept.after (holds : session.Holds good) (event : Event) (bears : ¬ event.Own → Aloof good) :
    (session.after event).Holds good := by
  cases event with
  | opening settings medium =>
    intro cache held
    simp only [Session.after] at held ⊢
    cases answer : (Cache.openIn medium session.tree settings).answer with
    | error error => rw [answer] at held; contradiction
    | ok opened =>
      rw [answer] at held
      obtain rfl := Option.some.inj held
      exact kept.opened answer
  | closing => exact fun cache held => by contradiction
  | add height block medium =>
    exact kept.after_ran holds medium fun chain sound => HeldChain.add_ensures sound height block
  | addRaw data txids treeSize medium =>
    exact kept.after_ran holds medium fun chain sound =>
      HeldChain.addRaw_ensures sound data txids treeSize
  | reorg height medium =>
    exact kept.after_ran holds medium fun chain sound => HeldChain.reorg_ensures sound height
  | outside tree handles =>
    intro cache held
    cases before : session.cache with
    | none => simp [Session.after, before] at held
    | some old =>
      simp only [Session.after, before, Option.map_some, Option.some.injEq] at held
      rw [← held]
      exact bears id session.tree tree old handles (holds old before)

theorem Kept.after_events (tree : Tree) {events : List Event}
    (bears : ∀ event ∈ events, ¬ event.Own → Aloof good) :
    (events.foldl Session.after ⟨tree, none⟩).Holds good := by
  have general : ∀ session : Session, session.Holds good →
      (events.foldl Session.after session).Holds good := by
    induction events with
    | nil => exact fun session holds => holds
    | cons event later ih =>
      intro session holds
      have first := kept.after holds event (bears event List.mem_cons_self)
      exact ih (fun other member => bears other (List.mem_cons_of_mem _ member)) _ first
  exact general ⟨tree, none⟩ fun _ none => by contradiction

end Kept

def Sound : Session → Prop :=
  Holds fun _ cache => cache.Sound

theorem kept_sound : Kept fun _ cache => cache.Sound where
  opened := Cache.openIn_sound
  ran := by
    intro α tree cache operation sound continues medium
    have after := (continues sound.chain).run medium (cache.handles.files tree)
    exact ⟨sound.checked, after.sound, after.first.trans sound.first⟩

theorem aloof_sound : Aloof fun _ cache => cache.Sound :=
  fun _ _ _ _ sound => ⟨sound.checked, sound.chain, sound.first⟩

theorem sound_after_events (tree : Tree) (events : List Event) :
    (events.foldl after ⟨tree, none⟩).Sound :=
  kept_sound.after_events tree fun _ _ _ => aloof_sound

/-- Every cache that is open after some events holds a chain whose parts agree. -/
theorem consistent_after_events (tree : Tree) (events : List Event) (cache : Cache)
    (held : (events.foldl after ⟨tree, none⟩).cache = some cache) : cache.chain.Consistent :=
  (sound_after_events tree events cache held).chain.consistent

def sampleBlock (height : Nat) : CompactBlock where
  height := .ofNat height
  hash := List.replicate 32 (.ofNat height)
  prevHash := List.replicate 32 (.ofNat (height - 1))

def sampleSettings : Settings :=
  { Settings.standard with path := "db", startHeight := 5 }

def damagedTree : Tree where
  entries := [(["db"], .directory), (["db", "testnet"], .directory),
    (["db", "testnet", "index"], .file (9 :: List.replicate 40 0)),
    (["db", "testnet", "blocks"], .file [1, 2, 3])]

def sampleEvents : List Event :=
  [.opening sampleSettings .perfect, .add 5 (sampleBlock 5) .perfect,
    .add 6 (sampleBlock 6) (.sizeLimit 120), .add 6 (sampleBlock 6) .perfect,
    .add 6 (sampleBlock 6) (.sizeLimit 0), .reorg 5 .perfect, .add 5 (sampleBlock 5) .perfect]

theorem consistent_after_damage : ∃ cache,
    (sampleEvents.foldl after ⟨damagedTree, none⟩).cache = some cache ∧ cache.chain.Consistent := by
  have open? : (sampleEvents.foldl after ⟨damagedTree, none⟩).cache.isSome = true := by
    decide +kernel
  obtain ⟨cache, held⟩ := Option.isSome_iff_exists.mp open?
  exact ⟨cache, held, consistent_after_events damagedTree sampleEvents cache held⟩

end Session

end CompactChain
