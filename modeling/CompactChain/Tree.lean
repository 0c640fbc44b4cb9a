import CompactChain.Store.Files

set_option autoImplicit false

namespace CompactChain

open Store (OsError)

abbrev Path := List String

namespace Path

def nameLimit : Nat := 255

def textLimit : Nat := 4096

-- The texts between slashes; `name` holds the characters since the last one, last one first.
def componentsAfter (name : List Char) : List Char → List String
  | [] => [String.ofList name.reverse]
  | c :: rest =>
    if c = '/' then String.ofList name.reverse :: componentsAfter [] rest
    else componentsAfter (c :: name) rest

def components (text : String) : Except OsError (List String) :=
  if text.toList.contains '\x00' then .error .nulInName
  else if textLimit ≤ text.utf8ByteSize then .error .nameTooLong
  else .ok (componentsAfter [] text.toList)

def stays (name : String) : Bool :=
  name = "" || name = "."

def step (here : Path) (name : String) : Path :=
  if stays name then here
  else if name = ".." then here.dropLast
  else here ++ [name]

def text (path : Path) : String :=
  "/".intercalate path

end Path

inductive Node where
  | directory
  | file (contents : Bytes)
  deriving DecidableEq

structure Tree where
  entries : List (Path × Node)
  deriving DecidableEq

namespace Tree

def empty : Tree := ⟨[]⟩

def find? (tree : Tree) (path : Path) : Option Node :=
  if path = [] then some .directory else tree.entries.lookup path

def put (tree : Tree) (path : Path) (node : Node) : Tree :=
  ⟨(path, node) :: tree.entries.filter fun entry => entry.1 ≠ path⟩

def remove (tree : Tree) (path : Path) : Tree :=
  ⟨tree.entries.filter fun entry => !path.isPrefixOf entry.1⟩

def removeBelow (tree : Tree) (path : Path) : Tree :=
  ⟨tree.entries.filter fun entry => !path.isPrefixOf entry.1 || entry.1 = path⟩

def move (tree : Tree) (source target : Path) : Tree :=
  ⟨tree.entries.map fun (path, node) =>
    (if source.isPrefixOf path then target ++ path.drop source.length else path, node)⟩

def follow (tree : Tree) (here : Path) : List String → Except OsError Path
  | [] => .ok here
  | name :: rest =>
    match tree.find? here with
    | none => .error .noSuchFile
    | some (.file _) => .error .notADirectory
    | some .directory =>
      if Path.nameLimit < name.utf8ByteSize then .error .nameTooLong
      else follow tree (Path.step here name) rest

def locate (tree : Tree) (text : String) : Except OsError Path :=
  match Path.components text with
  | .error cause => .error cause
  | .ok names => tree.follow [] names

def nodeAt? (tree : Tree) (text : String) : Option Node :=
  match tree.locate text with
  | .ok path => tree.find? path
  | .error _ => none

-- Makes the directories that are missing on the way from `here`; `made` tells whether one was. A file
-- in the way is found by looking for what follows it, but after a first directory was made, by making one
-- in its place.
def makeDirectoriesFrom (tree : Tree) (here : Path) (made : Bool) :
    List String → Tree × Except OsError Unit
  | [] => (tree, .ok ())
  | name :: rest =>
    if Path.nameLimit < name.utf8ByteSize then (tree, .error .nameTooLong)
    else
      let path := Path.step here name
      match tree.find? path with
      | some .directory => makeDirectoriesFrom tree path made rest
      | some (.file _) =>
        (tree, .error (if made || rest.isEmpty then .alreadyExists else .notADirectory))
      | none => makeDirectoriesFrom (tree.put path .directory) path true rest

def makeDirectories (tree : Tree) (text : String) : Tree × Except OsError Unit :=
  match Path.components text with
  | .error cause => (tree, .error cause)
  | .ok names => tree.makeDirectoriesFrom [] false (names.filter fun name => !Path.stays name)

def openFile (tree : Tree) (text : String) : Except OsError (Tree × Path) := do
  let path ← tree.locate text
  match tree.find? path with
  | some (.file _) => return (tree, path)
  | some .directory => .error .isADirectory
  | none => return (tree.put path (.file []), path)

def fileContents (tree : Tree) (text : String) : Except OsError Bytes := do
  match tree.find? (← tree.locate text) with
  | some (.file contents) => return contents
  | some .directory => .error .isADirectory
  | none => .error .noSuchFile

def putFile (tree : Tree) (text : String) (contents : Bytes) : Except OsError Tree := do
  let (tree, path) ← tree.openFile text
  return tree.put path (.file contents)

def modifyFile (tree : Tree) (text : String) (f : Bytes → Bytes) : Except OsError Tree := do
  tree.putFile text (f (← tree.fileContents text))

-- Copies a regular file. The target is emptied first, so what is copied to itself is left empty.
def copyFile (tree : Tree) (source target : String) : Except OsError Tree := do
  let path ← tree.locate source
  match tree.find? path with
  | some (.file contents) =>
    let (tree, copy) ← tree.openFile target
    return tree.put copy (.file (if copy = path then [] else contents))
  | some .directory => .error .notARegularFile
  | none => .error .noSuchFile

def rename (tree : Tree) (source target : String) : Except OsError Tree := do
  let path ← tree.locate source
  let new ← tree.locate target
  match tree.find? path with
  | some _ => return tree.move path new
  | none => .error .noSuchFile

-- Removes what a text leads to. What is below goes first; a directory that the text then no longer
-- leads to is left there, empty.
def removeAll (tree : Tree) (text : String) : Except OsError Tree := do
  let path ← tree.locate text
  match tree.find? path with
  | none => .error .noSuchFile
  | some _ =>
    let emptied := tree.removeBelow path
    match emptied.locate text with
    | .ok _ => return emptied.remove path
    | .error _ => return emptied

def listing (tree : Tree) (above : Path) : List (String × Option Nat) :=
  let below := tree.entries.filterMap fun (path, node) =>
    if above.isPrefixOf path && path ≠ above then
      let length := match node with
        | .directory => none
        | .file contents => some contents.length
      some (Path.text (path.drop above.length), length)
    else none
  below.mergeSort fun a b => decide (a.1 ≤ b.1)

end Tree

end CompactChain
