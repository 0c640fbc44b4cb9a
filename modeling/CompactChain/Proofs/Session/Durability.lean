import CompactChain.Proofs.Cache.Opening
import CompactChain.Proofs.Session.AnyDisk
import CompactChain.Proofs.Store.Stopped

set_option autoImplicit false

namespace CompactChain

-- The same files and the same start; what is discarded when they are opened may differ.
def Settings.reopening (settings : Settings) (syncFrom capacity : Option Nat) : Settings :=
  { settings with syncFrom := syncFrom, capacity := capacity }

theorem Settings.check_reopening (settings : Settings) (syncFrom capacity : Option Nat) :
    (settings.reopening syncFrom capacity).check = settings.check := rfl

namespace Session

open Cache (Blank Ready handlesAt)
open Store (Effect Files HeldChain Outcome Script)

inductive Operation where
  | add (height : Nat) (block : CompactBlock)
  | addRaw (data : Bytes) (txids : List Bytes) (treeSize : UInt32)
  | reorg (height : Nat)

namespace Operation

def height? : Operation → Option Nat
  | add height _ => some height
  | addRaw data txids treeSize => HeldChain.heightOfRaw? data txids treeSize
  | reorg height => some height

def effects (chain : HeldChain) : Operation → List Effect
  | add height block => (chain.add height block).effects
  | addRaw data txids treeSize => (chain.addRaw data txids treeSize).effects
  | reorg height => (chain.reorg height).effects

def completed (chain : HeldChain) : Operation → HeldChain
  | add height block => (chain.add height block).result.chain
  | addRaw data txids treeSize => (chain.addRaw data txids treeSize).result.chain
  | reorg height => (chain.reorg height).result.chain

def event : Operation → Event
  | add height block => .add height block .perfect
  | addRaw data txids treeSize => .addRaw data txids treeSize .perfect
  | reorg height => .reorg height .perfect

end Operation

/-- The process stops within an operation: after `complete` changes, and `count` bytes of the next. -/
def crashed (session : Session) (operation : Operation) (complete count : Nat) : Session :=
  match session.cache with
  | none => session
  | some cache =>
    let before := cache.handles.files session.tree
    let left := Effect.stopped complete count (operation.effects cache.chain) before
    ⟨(cache.handles.store session.tree left).1, none⟩

inductive Step where
  | operation (operation : Operation)
  | crash (operation : Operation) (complete count : Nat)
  | closing
  | opening (syncFrom capacity : Option Nat)

def stepped (settings : Settings) (session : Session) : Step → Session
  | .operation operation => session.after operation.event
  | .crash operation complete count => session.crashed operation complete count
  | .closing => session.close
  | .opening syncFrom capacity => (session.openCache (settings.reopening syncFrom capacity)).1

/-- A chain survives in the files; it is the one held by the cache that is open, if one is. -/
structure Lasting (settings : Settings) (session : Session) (chain : HeldChain) (files : Files) :
    Prop where
  checked : settings.check = .ok ()
  recorded : chain.Recorded
  first : chain.first = settings.startHeight
  ready : Ready settings session.tree files
  survives : chain.SurvivesIn files
  held : ∀ cache, session.cache = some cache →
    cache.chain = chain ∧ cache.handles = handlesAt settings ∧ files = chain.files

def Durable (settings : Settings) (session : Session) : Prop :=
  (session.cache = none ∧ Blank settings session.tree) ∨
    ∃ chain files, Lasting settings session chain files

section Steps

variable {settings : Settings} {session : Session} {chain : HeldChain} {files : Files}

theorem lasting_open {tree : Tree} (opened : Settings) (checked : settings.check = .ok ())
    (recorded : chain.Recorded) (first : chain.first = settings.startHeight)
    (ready : Ready settings tree chain.files) :
    Lasting settings ⟨tree, some ⟨opened, chain, handlesAt settings⟩⟩ chain chain.files := by
  refine ⟨checked, recorded, first, ready, HeldChain.survivesIn_files chain, ?_⟩
  rintro _ ⟨⟩
  exact ⟨rfl, rfl, rfl⟩

theorem Lasting.ran_eq {α : Type} {cache : Cache} {operation : HeldChain → Script (Outcome α)}
    (lasting : Lasting settings session chain files) (held : session.cache = some cache)
    (mirrors : chain.Mirrors (operation chain)) :
    let after := (operation chain).result.chain
    session.ran .perfect operation = ⟨((handlesAt settings).store session.tree after.files).1,
      some ⟨cache.settings, after, handlesAt settings⟩⟩ := by
  obtain ⟨same, handles, stored⟩ := lasting.held cache held
  have files := lasting.ready.files_eq
  rw [stored] at files
  simp only [ran, run, held, Option.map_some, Option.elim_some, Cache.run, same, handles, files,
    Script.run_perfect_eq, mirrors.files]
  rfl

theorem Lasting.ran {α : Type} {operation : HeldChain → Script (Outcome α)}
    (lasting : Lasting settings session chain files)
    (mirrors : chain.Mirrors (operation chain)) :
    ∃ chain files, Lasting settings (session.ran .perfect operation) chain files := by
  cases held : session.cache with
  | none =>
    refine ⟨chain, files, ?_⟩
    simpa [Session.ran, run, held] using lasting
  | some cache =>
    rw [lasting.ran_eq held mirrors]
    exact ⟨_, _, lasting_open cache.settings lasting.checked mirrors.recorded
      (mirrors.first.trans lasting.first) (lasting.ready.store _)⟩

theorem Lasting.after (lasting : Lasting settings session chain files) (operation : Operation) :
    ∃ chain files, Lasting settings (session.after operation.event) chain files := by
  cases operation with
  | add height block =>
    exact lasting.ran (HeldChain.add_mirrors lasting.recorded height block)
  | addRaw data txids treeSize =>
    exact lasting.ran (HeldChain.addRaw_mirrors lasting.recorded data txids treeSize)
  | reorg height => exact lasting.ran (HeldChain.reorg_mirrors lasting.recorded height)

theorem Operation.mirrors_first (recorded : chain.Recorded) (operation : Operation) :
    (operation.completed chain).Recorded ∧ (operation.completed chain).first = chain.first := by
  cases operation with
  | add height block =>
    have mirrors := HeldChain.add_mirrors recorded height block
    exact ⟨mirrors.recorded, mirrors.first⟩
  | addRaw data txids treeSize =>
    have mirrors := HeldChain.addRaw_mirrors recorded data txids treeSize
    exact ⟨mirrors.recorded, mirrors.first⟩
  | reorg height =>
    have mirrors := HeldChain.reorg_mirrors recorded height
    exact ⟨mirrors.recorded, mirrors.first⟩

def Operation.Leaves (chain kept : HeldChain) (operation : Operation) : Prop :=
  kept = chain ∨ kept = chain.discard operation.height? ∨ kept = operation.completed chain

def Operation.left (chain : HeldChain) (operation : Operation) (complete count : Nat) : Files :=
  Effect.stopped complete count (operation.effects chain) chain.files

theorem Operation.stopped (recorded : chain.Recorded) (operation : Operation)
    (complete count : Nat) : ∃ kept, operation.Leaves chain kept ∧
      kept.SurvivesIn (operation.left chain complete count) := by
  cases operation with
  | add height block => exact HeldChain.add_stopped recorded height block complete count
  | addRaw data txids treeSize =>
    exact HeldChain.addRaw_stopped recorded data txids treeSize complete count
  | reorg height => exact HeldChain.reorg_stopped recorded height complete count

theorem Lasting.crashed {cache : Cache} (lasting : Lasting settings session chain files)
    (held : session.cache = some cache) (operation : Operation) (complete count : Nat) :
    ∃ kept, operation.Leaves cache.chain kept ∧
      Lasting settings (session.crashed operation complete count) kept
        (operation.left cache.chain complete count) := by
  obtain ⟨rfl, handles, rfl⟩ := lasting.held cache held
  obtain ⟨kept, leaves, survives⟩ := operation.stopped lasting.recorded complete count
  have sound : kept.Recorded ∧ kept.first = cache.chain.first := by
    rcases leaves with rfl | rfl | rfl
    · exact ⟨lasting.recorded, rfl⟩
    · exact ⟨HeldChain.discard_recorded lasting.recorded _, HeldChain.discard_first _ _⟩
    · exact operation.mirrors_first lasting.recorded
  refine ⟨kept, leaves, ?_⟩
  simp only [Session.crashed, held, handles, lasting.ready.files_eq]
  refine ⟨lasting.checked, sound.1, sound.2.trans lasting.first, lasting.ready.store _, survives, ?_⟩
  rintro _ ⟨⟩

-- Files that end in what a stop left are cut to the chain, and copied aside before if it looks damaged.
theorem Lasting.openCache (lasting : Lasting settings session chain files)
    (syncFrom capacity : Option Nat) :
    let again := settings.reopening syncFrom capacity
    let kept := chain.discard syncFrom
    ∃ copied warnings, Ready settings copied files ∧
      (files = chain.files → copied = session.tree ∧ warnings = []) ∧
      session.openCache again =
        (⟨((handlesAt settings).store copied kept.files).1,
          some ⟨again, kept, handlesAt settings⟩⟩, .ok (), warnings) := by
  intro again kept
  have ready : Ready again session.tree files := ⟨lasting.ready.located, lasting.ready.stored⟩
  obtain ⟨copied, warnings, stays, clean, opened⟩ :=
    ready.openIn lasting.checked lasting.recorded lasting.first lasting.survives
  refine ⟨copied, warnings, ⟨stays.located, stays.stored⟩, clean, ?_⟩
  simp only [Session.openCache, opened]
  rfl

theorem Lasting.opened (lasting : Lasting settings session chain files)
    (syncFrom capacity : Option Nat) :
    let again := settings.reopening syncFrom capacity
    let kept := chain.discard syncFrom
    Lasting settings (session.openCache again).1 kept kept.files := by
  obtain ⟨copied, warnings, stays, _, opened⟩ := lasting.openCache syncFrom capacity
  have recorded := HeldChain.discard_recorded lasting.recorded syncFrom
  have first := (chain.discard_first syncFrom).trans lasting.first
  simp only [opened]
  exact lasting_open _ lasting.checked recorded first (stays.store _)

theorem durable_opened (blank : Blank settings session.tree) (syncFrom capacity : Option Nat) :
    Durable settings (session.openCache (settings.reopening syncFrom capacity)).1 := by
  have same : Blank (settings.reopening syncFrom capacity) session.tree := blank
  have opens := same.openIn
  unfold Session.openCache
  simp only
  split
  next cache opened =>
    have checked := Cache.check_of_openIn opened
    rw [Settings.check_reopening] at checked
    have low := Settings.startHeight_lt checked
    simp only [Cache.OpensEmpty, opened] at opens
    obtain ⟨rfl, ready⟩ := opens
    exact .inr ⟨_, _, lasting_open _ checked (HeldChain.empty_recorded low) rfl
      ⟨ready.located, ready.stored⟩⟩
  next error refused =>
    simp only [Cache.OpensEmpty, refused] at opens
    exact .inl ⟨rfl, opens⟩

theorem stepped_durable (durable : Durable settings session) (step : Step) :
    Durable settings (session.stepped settings step) := by
  rcases durable with ⟨closed, blank⟩ | ⟨chain, files, lasting⟩
  next =>
    -- no cache is open, so only opening does anything
    have idle {α : Type} (operation : HeldChain → Script (Outcome α)) :
        session.ran .perfect operation = session := by simp [ran, run, closed]
    cases step with
    | operation operation =>
      left
      cases operation <;> simpa [stepped, Session.after, Operation.event, idle] using ⟨closed, blank⟩
    | crash operation complete count => exact .inl (by simpa [stepped, crashed, closed] using blank)
    | closing => exact .inl ⟨rfl, blank⟩
    | opening syncFrom capacity => exact durable_opened blank syncFrom capacity
  next =>
    right
    cases step with
    | operation operation => exact lasting.after operation
    | crash operation complete count =>
      cases held : session.cache with
      | none => exact ⟨chain, files, by simpa [stepped, crashed, held] using lasting⟩
      | some cache =>
        obtain ⟨kept, _, after⟩ := lasting.crashed held operation complete count
        exact ⟨kept, _, after⟩
    | closing =>
      exact ⟨chain, files, lasting.checked, lasting.recorded, lasting.first, lasting.ready,
        lasting.survives, fun _ none => by contradiction⟩
    | opening syncFrom capacity => exact ⟨_, _, lasting.opened syncFrom capacity⟩

theorem steps_durable (durable : Durable settings session) (steps : List Step) :
    Durable settings (steps.foldl (stepped settings) session) := by
  induction steps generalizing session with
  | nil => exact durable
  | cons step later ih => exact ih (stepped_durable durable step)

end Steps

end Session

end CompactChain
