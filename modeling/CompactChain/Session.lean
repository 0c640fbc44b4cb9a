import CompactChain.Cache

set_option autoImplicit false

namespace CompactChain

open Store (Error HeldChain Medium OsError Outcome Script Warning)

structure Session where
  tree : Tree
  cache : Option Cache

namespace Session

def start (root : Path) : Session :=
  ⟨Tree.empty.put root .directory, none⟩

def openCache (session : Session) (settings : Settings) :
    Session × Except Error Unit × List Warning :=
  let opened := Cache.openIn .perfect session.tree settings
  match opened.answer with
  | .ok cache => (⟨opened.tree, some cache⟩, .ok (), opened.warnings)
  | .error error => (⟨opened.tree, none⟩, .error error, opened.warnings)

def run {α : Type} (session : Session) (medium : Medium)
    (operation : HeldChain → Script (Outcome α)) :
    Option (Session × Except Error α × List Warning) :=
  session.cache.map fun cache =>
    let (tree, cache, answer, warnings) := cache.run medium session.tree operation
    (⟨tree, some cache⟩, answer, warnings)

def close (session : Session) : Session :=
  { session with cache := none }

inductive FileChange where
  | write (path : String) (contents : Bytes)
  | patch (path : String) (offset : Nat) (data : Bytes)
  | resize (path : String) (length : Nat)
  | makeDirectory (path : String)
  | remove (path : String)
  | copy (source target : String)

def changeTree (session : Session) : Except OsError Tree → Session × Except OsError Unit
  | .ok tree => ({ session with tree := tree }, .ok ())
  | .error cause => (session, .error cause)

def remove (session : Session) (text : String) : Except OsError Session := do
  let path ← session.tree.locate text
  let tree ← session.tree.removeAll text
  let cache := session.cache.map fun cache =>
    { cache with handles := cache.handles.beforeRemoval session.tree path }
  return ⟨tree, cache⟩

def change (session : Session) : FileChange → Session × Except OsError Unit
  | .write path contents => session.changeTree (session.tree.putFile path contents)
  | .patch path offset data =>
    session.changeTree
      (session.tree.modifyFile path fun contents => Store.Contents.overwrite contents offset data)
  | .resize path length =>
    session.changeTree
      (session.tree.modifyFile path fun contents => Store.Contents.resize contents length)
  | .makeDirectory path =>
    let (tree, answer) := session.tree.makeDirectories path
    ({ session with tree := tree }, answer)
  | .remove path =>
    match session.remove path with
    | .ok session => (session, .ok ())
    | .error cause => (session, .error cause)
  | .copy source target => session.changeTree (session.tree.copyFile source target)

end Session

end CompactChain
