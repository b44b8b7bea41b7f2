import CanvasScript.Shell.Run

namespace CanvasScript

open Text (Octets)

namespace Shell

def standardTree : FileTree :=
  let empty (n : Octets) : Octets × FileTree := (n, .empty)
  .directory
    [empty "bin", ("dev", .directory [("null", .sink)]), empty "etc", empty "home", empty "root",
      empty "tmp", ("usr", .directory [empty "bin", empty "lib", empty "share"]), empty "var"]

def standardDisk (here : List Octets) : Disk := ⟨standardTree.put here .empty, here⟩

def longestCommand : Nat := 131071

def runCommand (d : Disk) (environment : List (String × String)) (command : String) :
    Except String (CommandOutcome Disk) :=
  let s := Text.encode command
  if s.contains '\x00' then .error "nul byte found in provided data"
  else if s.length > longestCommand then .error "Argument list too long (os error 7)"
  else .ok (Run.text d (environment.map fun v => (Text.encode v.1, Text.encode v.2)) s)

end Shell

instance : OperatingSystem Disk where
  readText d path := (d.readText path).mapError FileError.message
  writeText d path contents := (d.writeText path contents).mapError FileError.message
  listDirectory d path := (d.listDirectory path).mapError FileError.message
  isThere d path := d.has (Text.encode path)
  runCommand := Shell.runCommand

end CanvasScript
