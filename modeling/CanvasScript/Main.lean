import CanvasScript.CommandLine
import CanvasScript.Shell.Standard

namespace CanvasScript.CommandLine

open Text (Octets)

def octetsOfBytes (bytes : ByteArray) : Octets :=
  String.ofList (bytes.toList.map fun b => Char.ofNat b.toNat)

def bytesOfOctets (s : Octets) : ByteArray :=
  ⟨(s.toList.map fun c => UInt8.ofNat c.toNat).toArray⟩

def readTree : Nat → List IO.FS.DirEntry → IO FileTree
  | 0, _ => return .empty
  | depth + 1, entries => do
    let children ← entries.filterMapM fun entry => do
      let name := Text.encode entry.fileName
      try
        if ← entry.path.isDir then
          let below ← entry.path.readDir
          return some (name, ← readTree depth below.toList)
        else
          return some (name, FileTree.file (octetsOfBytes (← IO.FS.readBinFile entry.path)))
      catch _ => return none
    return .directory (children.foldl (fun es c => FileTree.setEntry c.1 c.2 es) [])

def writeChanges : Nat → String → Option FileTree → FileTree → IO Unit
  | _, path, before, .file contents => do
    let same : Bool := match before with
      | some (.file old) => old = contents
      | _ => false
    unless same do IO.FS.writeBinFile path (bytesOfOctets contents)
  | depth + 1, path, before, .directory entries => do
    let old := (before.map FileTree.entries).getD []
    if before.isNone then IO.FS.createDirAll path
    for e in old do
      if (entries.lookup e.1).isNone then
        let gone := path ++ "/" ++ Text.decodeLossy e.1
        if e.2.isDirectory then IO.FS.removeDirAll gone else IO.FS.removeFile gone
    for e in entries do
      writeChanges depth (path ++ "/" ++ Text.decodeLossy e.1) (old.lookup e.1) e.2
  | _, _, _, _ => return ()

def directoryDepth : Nat := 16

def readEnvironment : IO (List (String × String)) :=
  ["HOME", "LANG", "PATH", "PWD", "TMPDIR", "USER", "XDG_CONFIG_HOME"].filterMapM fun name => do
    return (← IO.getEnv name).map fun value => (name, value)

def withFile (d : Disk) (path : String) : IO Disk := do
  if d.has (Text.encode path) then return d
  try
    let contents := octetsOfBytes (← IO.FS.readBinFile path)
    return d.put ((FileTree.steps (Text.encode path)).filter (· ≠ ".")) (.file contents)
  catch _ => return d

def runHere (args : List String) : IO UInt32 := do
  let here ← IO.currentDir
  let names := (FileTree.steps (Text.encode here.toString)).filter (· ≠ ".")
  let tree ← readTree directoryDepth (← here.readDir).toList
  let disk := (Shell.standardDisk names).put names tree
  let place : Workplace Disk := ⟨disk, ← readEnvironment, ← IO.rand 0 2147483647⟩
  let disk ← match place.settingsFile? with
    | some path => withFile disk path
    | none => pure disk
  let report := run args { place with disk := disk }
  IO.print report.stdout
  IO.eprint report.stderr
  match report.disk.root.at? names with
  | some after => writeChanges directoryDepth "." (some tree) after
  | none => pure ()
  return report.code.toUInt32

end CanvasScript.CommandLine

def main (args : List String) : IO UInt32 := CanvasScript.CommandLine.runHere args
