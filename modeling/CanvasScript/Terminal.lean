import CanvasScript.Canvas.Json
import CanvasScript.Host.Recorder
import CanvasScript.OperatingSystem
import CanvasScript.Run
import CanvasScript.Text.Blank

namespace CanvasScript

variable {σ : Type}

structure Terminal (σ : Type) where
  disk : σ
  environment : List (String × String)
  stdout : String
  /-- Lines of the log, the last one first. -/
  log : List String
  showCanvas : Bool
  canvasCommands : Nat
  seed : Nat

namespace Terminal

def begin_ (disk : σ) (environment : List (String × String)) (showCanvas : Bool) (seed : Nat) :
    Terminal σ :=
  ⟨disk, environment, "", [], showCanvas, 0, seed⟩

def print (t : Terminal σ) (text : String) : Terminal σ := { t with stdout := t.stdout ++ text }

def draw (t : Terminal σ) (command : CanvasCommand) : Terminal σ :=
  let t := { t with canvasCommands := t.canvasCommands + 1 }
  if t.showCanvas then t.print (command.toJson.compact ++ "\n") else t

variable [OperatingSystem σ]

def writeFile (t : Terminal σ) (path contents : String) : Except String Unit × Terminal σ :=
  match OperatingSystem.writeText t.disk path contents with
  | .ok disk => (.ok (), { t with disk := disk })
  | .error reason => (.error reason, t)

def readDir (t : Terminal σ) (path : String) : Except String (List DirEntry) := do
  let entries ← OperatingSystem.listDirectory t.disk path
  let shown := entries.map fun e =>
    (⟨Text.decodeLossy e.1, if e.2 then .directory else .file⟩ : DirEntry)
  return shown.mergeSort fun a b => a.entry ≤ b.entry

def exec (t : Terminal σ) (command : String) : Except String String × Terminal σ :=
  let t := { t with log := ("[DEBUG quill::host] exec: " ++ command) :: t.log }
  match OperatingSystem.runCommand t.disk t.environment command with
  | .error reason => (.error reason, t)
  | .ok outcome =>
    let t := { t with disk := outcome.disk }
    if outcome.termination = .exited 0 then (.ok (Text.decodeLossy outcome.out), t)
    else
      let complaint := Text.trim (Text.decodeLossy outcome.err)
      (.error (s!"`{command}` failed ({outcome.termination.text}): {complaint}"), t)

/-- A pause takes no time. -/
def answer : (r : Request) → Terminal σ → r.Reply × Terminal σ
  | .output chunk, t => ((), t.print chunk)
  | .clearConsole, t => ((), t.print "\x1b[2J\x1b[H")
  | .canvas command, t => ((), t.draw command)
  | .wait _, t => ((), t)
  | .random, t => (Recorder.fraction t.seed, { t with seed := Recorder.nextSeed t.seed })
  | .readFile path, t => (OperatingSystem.readText t.disk path, t)
  | .writeFile path contents, t => t.writeFile path contents
  | .readDir path, t => (t.readDir path, t)
  | .exec command, t => t.exec command

end Terminal

def Host.terminal [OperatingSystem σ] : Host (Terminal σ) := ⟨Terminal.answer⟩

end CanvasScript
