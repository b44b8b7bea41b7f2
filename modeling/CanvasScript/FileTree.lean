import CanvasScript.Text.Octets

namespace CanvasScript

open Text (Octets)

inductive FileError where
  | notFound
  | badDescriptor
  | alreadyThere
  | notADirectory
  | isADirectory
  | invalidArgument
  | nameTooLong
  | notEmpty
  | nulInName
  | notText
deriving DecidableEq, Repr

def FileError.brief : FileError → String
  | notFound => "No such file or directory"
  | badDescriptor => "Bad file descriptor"
  | alreadyThere => "File exists"
  | notADirectory => "Not a directory"
  | isADirectory => "Is a directory"
  | invalidArgument => "Invalid argument"
  | nameTooLong => "File name too long"
  | notEmpty => "Directory not empty"
  | nulInName => "file name contained an unexpected NUL byte"
  | notText => "stream did not contain valid UTF-8"

def FileError.number? : FileError → Option Nat
  | notFound => some 2
  | badDescriptor => some 9
  | alreadyThere => some 17
  | notADirectory => some 20
  | isADirectory => some 21
  | invalidArgument => some 22
  | nameTooLong => some 36
  | notEmpty => some 39
  | nulInName => none
  | notText => none

def FileError.message (e : FileError) : String :=
  match e.number? with
  | some n => e.brief ++ s!" (os error {n})"
  | none => e.brief

/-- The entries of a directory are sorted by name. A sink is empty and swallows what is written. -/
inductive FileTree where
  | file (contents : Octets)
  | directory (entries : List (Octets × FileTree))
  | sink

namespace FileTree

def empty : FileTree := .directory []

instance : Inhabited FileTree := ⟨empty⟩

def isDirectory : FileTree → Bool
  | directory _ => true
  | _ => false

def entries : FileTree → List (Octets × FileTree)
  | directory es => es
  | _ => []

def at? : List Octets → FileTree → Option FileTree
  | [], t => some t
  | name :: rest, directory entries => (entries.lookup name).bind (at? rest)
  | _ :: _, _ => none

def setEntry (name : Octets) (t : FileTree) : List (Octets × FileTree) → List (Octets × FileTree)
  | [] => [(name, t)]
  | (k, u) :: rest =>
    if k = name then (k, t) :: rest
    else if name < k then (name, t) :: (k, u) :: rest
    else (k, u) :: setEntry name t rest

/-- Directories that are missing on the way are made. -/
def put : FileTree → List Octets → FileTree → FileTree
  | _, [], u => u
  | directory entries, name :: rest, u =>
    directory (setEntry name (put ((entries.lookup name).getD empty) rest u) entries)
  | _, name :: rest, u => directory [(name, put empty rest u)]

def remove : List Octets → FileTree → FileTree
  | [], t => t
  | [name], directory entries => directory (entries.filter (·.1 ≠ name))
  | name :: rest, directory entries =>
    match entries.lookup name with
    | some u => directory (setEntry name (remove rest u) entries)
    | none => directory entries
  | _ :: _, t => t

/-- The names between the slashes of a path; a path that ends in a slash ends in `.`. -/
def steps (path : Octets) : List Octets :=
  let parts := path.splitOn "/"
  let names := parts.filter (· ≠ "")
  if parts.getLast? = some "" then names ++ ["."] else names

end FileTree

end CanvasScript
