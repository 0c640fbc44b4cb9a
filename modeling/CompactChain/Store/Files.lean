import CompactChain.Bytes
import CompactChain.Store.OsError

set_option autoImplicit false

namespace CompactChain.Store

namespace Contents

def resize (contents : Bytes) (length : Nat) : Bytes :=
  contents.take length ++ List.replicate (length - contents.length) 0

def overwrite (contents : Bytes) (offset : Nat) (data : Bytes) : Bytes :=
  if data = [] then contents
  else resize contents offset ++ data ++ contents.drop (offset + data.length)

end Contents

inductive FileName where
  | blocks
  | index
  deriving DecidableEq

structure Files where
  blocks : Bytes
  index : Bytes
  deriving DecidableEq

namespace Files

def empty : Files := ⟨[], []⟩

def get (files : Files) : FileName → Bytes
  | .blocks => files.blocks
  | .index => files.index

def modify (files : Files) (name : FileName) (f : Bytes → Bytes) : Files :=
  match name with
  | .blocks => { files with blocks := f files.blocks }
  | .index => { files with index := f files.index }

end Files

inductive Effect where
  | resize (file : FileName) (length : Nat)
  | write (file : FileName) (offset : Nat) (data : Bytes)
  deriving DecidableEq

namespace Effect

def file : Effect → FileName
  | resize file _ => file
  | write file _ _ => file

def apply (files : Files) : Effect → Files
  | resize file length => files.modify file fun contents => Contents.resize contents length
  | write file offset data => files.modify file fun contents => Contents.overwrite contents offset data

/-- What a change leaves that fails, or is cut short, after `count` bytes. -/
def applyPart (files : Files) (count : Nat) : Effect → Files
  | resize _ _ => files
  | write file offset data => (write file offset (data.take count)).apply files

end Effect

structure Failure where
  after : Nat
  cause : OsError
  deriving DecidableEq

/-- Decides by the number of a change, the change itself and the length of the file it is made to. -/
abbrev Medium := (step : Nat) → Effect → (length : Nat) → Option Failure

namespace Medium

def perfect : Medium := fun _ _ _ => none

-- No file may grow beyond `limit` bytes; a file that is longer already may be cut.
def sizeLimit (limit : Nat) : Medium := fun _ effect size =>
  match effect with
  | .resize _ length => if limit < length ∧ size < length then some ⟨0, .fileTooLarge⟩ else none
  | .write _ offset data =>
    if limit < offset + data.length then some ⟨limit - offset, .fileTooLarge⟩ else none

end Medium

inductive Script (α : Type) where
  | done (value : α)
  | perform (effect : Effect) (next : Except OsError Unit → Script α)

namespace Script

variable {α β : Type}

def bind : Script α → (α → Script β) → Script β
  | done value, f => f value
  | perform effect next, f => perform effect fun answer => (next answer).bind f

instance : Monad Script where
  pure := done
  bind := bind

def ask (effect : Effect) : Script (Except OsError Unit) :=
  perform effect done

def runFrom (medium : Medium) (step : Nat) : Script α → Files → α × Files
  | done value, files => (value, files)
  | perform effect next, files =>
    match medium step effect (files.get effect.file).length with
    | none => (next (.ok ())).runFrom medium (step + 1) (effect.apply files)
    | some failure =>
      (next (.error failure.cause)).runFrom medium (step + 1) (effect.applyPart files failure.after)

def run (medium : Medium) (script : Script α) (files : Files) : α × Files :=
  script.runFrom medium 0 files

def effects : Script α → List Effect
  | done _ => []
  | perform effect next => effect :: (next (.ok ())).effects

theorem run_perfect (script : Script α) (files : Files) :
    (script.run .perfect files).2 = script.effects.foldl Effect.apply files := by
  have general : ∀ step, (script.runFrom .perfect step files).2 =
      script.effects.foldl Effect.apply files := by
    induction script generalizing files with
    | done value => intro step; rfl
    | perform effect next ih => intro step; exact ih (.ok ()) (effect.apply files) (step + 1)
  exact general 0

end Script

end CompactChain.Store
