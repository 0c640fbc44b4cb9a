import CompactChain.Session
import CompactChain.Store.Guarded

set_option autoImplicit false

namespace CompactChain

open Store (Error Files Medium Stop Warning)

namespace Cache

def foundThere? (tree : Tree) (settings : Settings) : Option Files :=
  match openFiles tree settings with
  | (tree, .ok handles) => some (handles.files tree)
  | (tree, .error _) =>
    match openFiles (bothFiles setAside tree settings).1 settings with
    | (_, .error _) => none
    | (tree, .ok handles) => some (handles.files tree)

def found? (tree : Tree) (settings : Settings) : Option Files :=
  match settings.check with
  | .error _ => none
  | .ok () =>
    match tree.makeDirectories settings.directory with
    | (_, .error _) => none
    | (tree, .ok ()) => foundThere? tree settings

def stop? (tree : Tree) (settings : Settings) : Option Stop :=
  match found? tree settings with
  | none => none
  | some files =>
    match Store.recoverGuarded (settings.capacity.getD 0) settings.startHeight files with
    | .error stop => some stop
    | .ok _ => none

def launch (medium : Medium) (tree : Tree) (settings : Settings) : Except Stop Opened :=
  match stop? tree settings with
  | some stop => .error stop
  | none => .ok (openIn medium tree settings)

end Cache

def Session.launch (session : Session) (settings : Settings) :
    Except Stop (Session × Except Error Unit × List Warning) :=
  match Cache.stop? session.tree settings with
  | some stop => .error stop
  | none => .ok (session.openCache settings)

end CompactChain
