import CompactChain.Store.Operation
import CompactChain.Store.Recovery
import CompactChain.Tree

set_option autoImplicit false

namespace CompactChain

open Store (Error Files FileName HeldChain Medium OsError Outcome Script Warning)

inductive Handle where
  | linked (path : Path)
  | detached (contents : Bytes)
  deriving DecidableEq

namespace Handle

def contents (tree : Tree) : Handle → Bytes
  | .linked path =>
    match tree.find? path with
    | some (.file contents) => contents
    | _ => []
  | .detached contents => contents

def store (tree : Tree) (contents : Bytes) : Handle → Tree × Handle
  | .linked path => (tree.put path (.file contents), .linked path)
  | .detached _ => (tree, .detached contents)

def beforeRemoval (tree : Tree) (path : Path) : Handle → Handle
  | .linked file =>
    if path.isPrefixOf file then .detached (contents tree (.linked file)) else .linked file
  | .detached contents => .detached contents

end Handle

structure Handles where
  blocks : Handle
  index : Handle
  deriving DecidableEq

namespace Handles

def files (handles : Handles) (tree : Tree) : Files :=
  ⟨handles.blocks.contents tree, handles.index.contents tree⟩

def store (handles : Handles) (tree : Tree) (files : Files) : Tree × Handles :=
  let (tree, blocks) := handles.blocks.store tree files.blocks
  let (tree, index) := handles.index.store tree files.index
  (tree, ⟨blocks, index⟩)

def beforeRemoval (handles : Handles) (tree : Tree) (path : Path) : Handles :=
  ⟨handles.blocks.beforeRemoval tree path, handles.index.beforeRemoval tree path⟩

end Handles

structure Cache where
  settings : Settings
  chain : HeldChain
  handles : Handles
  deriving DecidableEq

namespace Cache

def fileName : FileName → String
  | .blocks => "blocks"
  | .index => "index"

def filePath (settings : Settings) (name : FileName) : String :=
  Settings.join settings.directory (fileName name)

def asidePath (path : String) : String :=
  path ++ "-corrupted"

def openFiles (tree : Tree) (settings : Settings) : Tree × Except OsError Handles :=
  match tree.openFile (filePath settings .blocks) with
  | .error cause => (tree, .error cause)
  | .ok (tree, blocks) =>
    match tree.openFile (filePath settings .index) with
    | .error cause => (tree, .error cause)
    | .ok (tree, index) => (tree, .ok ⟨.linked blocks, .linked index⟩)

def clearAside (tree : Tree) (path : String) : Tree :=
  match tree.removeAll (asidePath path) with
  | .ok tree => tree
  | .error _ => tree

def setAside (tree : Tree) (path : String) : Tree × List Warning :=
  match tree.nodeAt? path with
  | none => (tree, [])
  | some _ =>
    let cleared := clearAside tree path
    match cleared.rename path (asidePath path) with
    | .ok tree => (tree, [.moved path (asidePath path)])
    | .error cause => (cleared, [.moveFailed path cause])

def copyAside (tree : Tree) (path : String) : Tree × List Warning :=
  match tree.copyFile path (asidePath path) with
  | .ok tree => (tree, [])
  | .error cause => (tree, [.copyFailed path (asidePath path) cause])

def bothFiles (step : Tree → String → Tree × List Warning) (tree : Tree) (settings : Settings) :
    Tree × List Warning :=
  let (tree, first) := step tree (filePath settings .blocks)
  let (tree, second) := step tree (filePath settings .index)
  (tree, first ++ second)

structure Opened where
  tree : Tree
  answer : Except Error Cache
  warnings : List Warning

def ofHandles (medium : Medium) (tree : Tree) (settings : Settings) (handles : Handles) : Opened :=
  let files := handles.files tree
  let recovered := Store.recover settings.startHeight files
  let (tree, warnings) :=
    match recovered.damage with
    | none => (tree, [])
    | some (height, damage) =>
      let (tree, copying) := bothFiles copyAside tree settings
      (tree, .damaged height damage recovered.blocks.length :: copying)
  let (settled, files) := recovered.settle medium settings.startHeight settings.syncFrom files
  let (tree, handles) := handles.store tree files
  match settled with
  | .ok chain => ⟨tree, .ok ⟨settings, chain, handles⟩, warnings⟩
  | .error cause => ⟨tree, .error (.os cause), warnings⟩

def openThere (medium : Medium) (tree : Tree) (settings : Settings) : Opened :=
  match openFiles tree settings with
  | (tree, .ok handles) => ofHandles medium tree settings handles
  | (tree, .error cause) =>
    let (tree, moving) := bothFiles setAside tree settings
    let warnings := .unreadable settings.directory cause settings.startHeight :: moving
    match openFiles tree settings with
    | (tree, .error cause) => ⟨tree, .error (.os cause), warnings⟩
    | (tree, .ok handles) =>
      let opened := ofHandles medium tree settings handles
      { opened with warnings := warnings ++ opened.warnings }

def openIn (medium : Medium) (tree : Tree) (settings : Settings) : Opened :=
  match settings.check with
  | .error cause => ⟨tree, .error (.settings cause), []⟩
  | .ok () =>
    match tree.makeDirectories settings.directory with
    | (tree, .error cause) => ⟨tree, .error (.os cause), []⟩
    | (tree, .ok ()) => openThere medium tree settings

def run {α : Type} (medium : Medium) (tree : Tree) (cache : Cache)
    (operation : HeldChain → Script (Outcome α)) : Tree × Cache × Except Error α × List Warning :=
  let (outcome, files) := (operation cache.chain).run medium (cache.handles.files tree)
  let (tree, handles) := cache.handles.store tree files
  (tree, ⟨cache.settings, outcome.chain, handles⟩, outcome.answer, outcome.warnings)

end Cache

end CompactChain
