import CompactChain.Proofs.Cache.Opening
import CompactChain.Proofs.Session.AnyDisk

set_option autoImplicit false

namespace CompactChain

open Store (Error Files HeldChain Medium Outcome Script Warning)

namespace Cache

structure Attached (tree : Tree) (cache : Cache) : Prop where
  sound : cache.chain.Sound
  handles : cache.handles = handlesAt cache.settings
  ready : Ready cache.settings tree (cache.handles.files tree)

section Opening

variable {medium : Medium} {tree : Tree} {settings : Settings} {cache : Cache}

theorem attached_store {chain : HeldChain} {before : Files} (sound : chain.Sound)
    (ready : Ready settings tree before) (files : Files) :
    Attached ((handlesAt settings).store tree files).1 ⟨settings, chain, handlesAt settings⟩ := by
  have stored := ready.store files
  refine ⟨sound, rfl, ?_⟩
  simpa only [stored.files_eq] using stored

theorem ofHandles_of_openThere (opened : (openThere medium tree settings).answer = .ok cache) :
    ∃ there files, Ready settings there files ∧
      (ofHandles medium there settings (handlesAt settings)).answer = .ok cache ∧
      (openThere medium tree settings).tree =
        (ofHandles medium there settings (handlesAt settings)).tree := by
  unfold openThere at opened ⊢
  split at opened
  next there handles placed =>
    obtain ⟨rfl, files, ready, _⟩ := ready_of_openFiles placed
    exact ⟨there, files, ready, opened, rfl⟩
  next there cause unreadable =>
    simp only at opened ⊢
    split at opened
    · contradiction
    next again handles placed =>
      obtain ⟨rfl, files, ready, _⟩ := ready_of_openFiles placed
      exact ⟨again, files, ready, opened, rfl⟩

theorem ofHandles_of_openIn (opened : (openIn medium tree settings).answer = .ok cache) :
    settings.check = .ok () ∧ ∃ there files, Ready settings there files ∧
      (ofHandles medium there settings (handlesAt settings)).answer = .ok cache ∧
      (openIn medium tree settings).tree =
        (ofHandles medium there settings (handlesAt settings)).tree := by
  have checked := check_of_openIn opened
  simp only [openIn, checked] at opened ⊢
  split at opened
  · contradiction
  · exact ⟨trivial, ofHandles_of_openThere opened⟩

theorem handles_of_openIn (opened : (openIn medium tree settings).answer = .ok cache) :
    cache.handles = handlesAt settings := by
  obtain ⟨-, there, files, ready, answered, -⟩ := ofHandles_of_openIn opened
  simp only [ofHandles] at answered
  split at answered
  next =>
    obtain rfl := Except.ok.inj answered
    rfl
  · contradiction

theorem attached_of_openIn (opened : (openIn medium tree settings).answer = .ok cache) :
    cache.Attached (openIn medium tree settings).tree := by
  obtain ⟨checked, there, files, ready, answered, left⟩ := ofHandles_of_openIn opened
  have sound := (ofHandles_sound checked answered).chain
  rw [left]
  simp only [ofHandles, ready.files_eq] at answered ⊢
  split at answered
  next chain settled =>
    obtain rfl := Except.ok.inj answered
    cases damaged : (Store.recover settings.startHeight files).damage with
    | none => exact attached_store sound ready _
    | some found => exact attached_store sound ready.copyBothAside _
  · contradiction

end Opening

end Cache

namespace Session

open Cache (handlesAt)

def Attached : Session → Prop :=
  Holds fun tree cache => cache.Attached tree

structure Unchanged (session after : Session) : Prop where
  cache : after.cache = session.cache
  files : ∀ path, after.tree.find? path = session.tree.find? path

section Events

variable {session : Session} {cache : Cache}

theorem run_eq {α : Type} {settings : Settings} (held : session.cache = some cache)
    (handles : cache.handles = handlesAt settings) (medium : Medium)
    (operation : HeldChain → Script (Outcome α)) :
    let ended := (operation cache.chain).run medium ((handlesAt settings).files session.tree)
    session.run medium operation =
      some (⟨((handlesAt settings).store session.tree ended.2).1,
        some ⟨cache.settings, ended.1.chain, handlesAt settings⟩⟩,
        ended.1.answer, ended.1.warnings) := by
  simp only [run, held, Option.map_some, Cache.run, handles]
  rfl

theorem Attached.run_eq {α : Type} (attached : session.Attached) (held : session.cache = some cache)
    (medium : Medium) (operation : HeldChain → Script (Outcome α)) :
    let ended := (operation cache.chain).run medium (cache.handles.files session.tree)
    session.run medium operation =
      some (⟨((handlesAt cache.settings).store session.tree ended.2).1,
        some ⟨cache.settings, ended.1.chain, handlesAt cache.settings⟩⟩,
        ended.1.answer, ended.1.warnings) := by
  have handles := (attached cache held).handles
  rw [Session.run_eq held handles, ← handles]

theorem Attached.run_pure {α : Type} {answer : Except Error α} {warnings : List Warning}
    (attached : session.Attached) (held : session.cache = some cache) (medium : Medium)
    (operation : HeldChain → Script (Outcome α))
    (idle : operation cache.chain = pure ⟨cache.chain, answer, warnings⟩) :
    ∃ after, session.run medium operation = some (after, answer, warnings) ∧
      Unchanged session after := by
  have there := attached cache held
  rw [attached.run_eq held, idle]
  refine ⟨_, rfl, ?_, fun path => there.ready.find?_store_self path⟩
  rw [held, ← there.handles]
  rfl

theorem kept_attached : Kept fun tree cache => cache.Attached tree where
  opened := Cache.attached_of_openIn
  ran := by
    intro α tree cache operation attached continues medium
    have after := (continues attached.sound).run medium (cache.handles.files tree)
    simp only [Cache.run, attached.handles] at after ⊢
    exact Cache.attached_store after.sound attached.ready _

theorem attached_after_events (tree : Tree) {events : List Event}
    (own : ∀ event ∈ events, event.Own) : (events.foldl after ⟨tree, none⟩).Attached :=
  kept_attached.after_events tree fun event member foreign => absurd (own event member) foreign

end Events

end Session

end CompactChain
