import CanvasScript.FileTree

namespace CanvasScript

open Text (Octets)

structure Disk where
  root : FileTree
  /-- The names that lead from the top to the working directory. -/
  here : List Octets

namespace Disk

def longestName : Nat := 255

def longestPath : Nat := 4095

/-- Follows steps from the place whose names in reverse are `at_`. Every step but the last has to
lead to a directory, and the directory above the top is the top. -/
def follow (root : FileTree) (at_ : List Octets) : List Octets → Except FileError (List Octets)
  | [] => .ok at_
  | step :: rest =>
    match root.at? at_.reverse with
    | some (.directory entries) =>
      if step.length > longestName then .error .nameTooLong
      else if step = "." then follow root at_ rest
      else if step = ".." then follow root at_.tail rest
      else if rest.isEmpty || (entries.lookup step).isSome then follow root (step :: at_) rest
      else .error .notFound
    | some _ => .error .notADirectory
    | none => .error .notFound

def resolve (d : Disk) (path : Octets) : Except FileError (List Octets) :=
  if path.isEmpty then .error .notFound
  else if path.length > longestPath then .error .nameTooLong
  else
    let start := if path.startsWith "/" then [] else d.here.reverse
    (follow d.root start (FileTree.steps path)).map List.reverse

def find (d : Disk) (path : Octets) : Except FileError (List Octets × FileTree) := do
  let names ← d.resolve path
  match d.root.at? names with
  | some t => return (names, t)
  | none => throw .notFound

def lookup (d : Disk) (path : Octets) : Except FileError FileTree := (d.find path).map (·.2)

def has (d : Disk) (path : Octets) : Bool := (d.lookup path).toOption.isSome

def hasDirectory (d : Disk) (path : Octets) : Bool :=
  ((d.lookup path).toOption.map FileTree.isDirectory).getD false

def put (d : Disk) (names : List Octets) (t : FileTree) : Disk :=
  { d with root := d.root.put names t }

def removeAt (d : Disk) (names : List Octets) : Disk := { d with root := d.root.remove names }

def contentsOf : FileTree → Except FileError Octets
  | .file contents => .ok contents
  | .directory _ => .error .isADirectory
  | .sink => .ok ""

def read (d : Disk) (path : Octets) : Except FileError Octets := do contentsOf (← d.lookup path)

def endsInSlash (path : Octets) : Bool := path.endsWith "/"

def withoutSlashes (path : Octets) : Octets :=
  let bare := String.ofList (path.toList.reverse.dropWhile (· = '/')).reverse
  if bare.isEmpty then path else bare

/-- The place of a file that is opened to be written, which is made if it is not there. A path that
ends in a slash cannot name a file; it is refused once its directory is found. -/
def openToWrite (d : Disk) (path : Octets) : Except FileError (List Octets × Disk) :=
  if endsInSlash path && !endsInSlash (withoutSlashes path) then do
    discard (d.resolve (withoutSlashes path))
    throw .isADirectory
  else do
    let names ← d.resolve path
    match d.root.at? names with
    | some (.directory _) => throw .isADirectory
    | some _ => return (names, d)
    | none => return (names, d.put names (.file ""))

def setContents (d : Disk) (names : List Octets) (contents : Octets) : Disk :=
  match d.root.at? names with
  | some .sink => d
  | _ => d.put names (.file contents)

def write (d : Disk) (path contents : Octets) : Except FileError Disk := do
  let (names, d) ← d.openToWrite path
  return d.setContents names contents

def list (d : Disk) (path : Octets) : Except FileError (List (Octets × FileTree)) := do
  match ← d.lookup path with
  | .directory entries => return entries
  | _ => throw .notADirectory

def makeDirectory (d : Disk) (path : Octets) : Except FileError Disk := do
  let names ← d.resolve (withoutSlashes path)
  if (d.root.at? names).isSome then throw .alreadyThere
  return d.put names .empty

def removeDirectory (d : Disk) (path : Octets) : Except FileError Disk := do
  match ← d.find path with
  | (names, .directory []) => return d.removeAt names
  | (_, .directory _) => throw .notEmpty
  | _ => throw .notADirectory

def rename (d : Disk) (old new : Octets) : Except FileError Disk := do
  let (source, t) ← d.find (withoutSlashes old)
  if endsInSlash old && !t.isDirectory then throw .notADirectory
  let target ← d.resolve (withoutSlashes new)
  if source = target then return d
  if source.isPrefixOf target then throw .invalidArgument
  match t.isDirectory, d.root.at? target with
  | true, some (.directory (_ :: _)) => throw .notEmpty
  | true, some (.directory []) => pure ()
  | true, some _ => throw .notADirectory
  | false, some (.directory _) => throw .isADirectory
  | _, _ => pure ()
  if endsInSlash new && !t.isDirectory then throw .notADirectory
  return (d.removeAt source).put target t

def pathOf (path : String) : Except FileError Octets :=
  if path.contains '\x00' then .error .nulInName else .ok (Text.encode path)

def readText (d : Disk) (path : String) : Except FileError String := do
  match Text.decode? (← d.read (← pathOf path)) with
  | some text => return text
  | none => throw .notText

def writeText (d : Disk) (path contents : String) : Except FileError Disk := do
  d.write (← pathOf path) (Text.encode contents)

def listDirectory (d : Disk) (path : String) : Except FileError (List (Octets × Bool)) := do
  let entries ← d.list (← pathOf path)
  return entries.map fun e => (e.1, e.2.isDirectory)

def withFiles (d : Disk) (files : List (String × String)) : Disk :=
  files.foldl (fun d f =>
    let names := (FileTree.steps (Text.encode f.1)).filter (· ≠ ".")
    d.put (d.here ++ names) (.file (Text.encode f.2))) d

end Disk

end CanvasScript
