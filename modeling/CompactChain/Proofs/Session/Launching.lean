import CompactChain.Proofs.Cache.Launching
import CompactChain.Proofs.Session.Durability

set_option autoImplicit false

namespace CompactChain

open Store (Files HasRoom roomLimit)

theorem Cache.Ready.reopening {settings : Settings} {tree : Tree} {files : Files}
    (ready : Cache.Ready settings tree files) (syncFrom capacity : Option Nat) :
    Cache.Ready (settings.reopening syncFrom capacity) tree files :=
  ⟨ready.located, ready.stored⟩

namespace Session

open Cache (Ready place)

/-- Both files stand in their places, and nothing but a lack of room stops a cache that is opened on
them. -/
structure Launches (settings : Settings) (session : Session) (files : Files) : Prop where
  found : ∀ name, session.tree.find? (place settings name) = some (.file (files.get name))
  launched : ∀ syncFrom capacity, HasRoom (capacity.getD 0) files → files.blocks.length ≤ roomLimit →
    session.launch (settings.reopening syncFrom capacity) =
      .ok (session.openCache (settings.reopening syncFrom capacity))

variable {settings : Settings} {session : Session} {files : Files}

theorem launches_ready (ready : Ready settings session.tree files) (checked : settings.check = .ok ()) :
    Launches settings session files := by
  refine ⟨ready.stored, ?_⟩
  intro syncFrom capacity room small
  have there := ready.reopening syncFrom capacity
  have checkedAgain := (settings.check_reopening syncFrom capacity).trans checked
  have room : HasRoom ((settings.reopening syncFrom capacity).capacity.getD 0) files := room
  rw [Session.launch, there.stop?_eq checkedAgain small, room.makeRoom]

theorem Lasting.launches {chain : Store.HeldChain} (lasting : Lasting settings session chain files) :
    Launches settings session files :=
  launches_ready lasting.ready lasting.checked

end Session

end CompactChain
