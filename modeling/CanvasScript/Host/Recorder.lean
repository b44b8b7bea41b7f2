import CanvasScript.Host
import CanvasScript.Number.Power

namespace CanvasScript

/-- What a recorder writes down. A pause leaves two events, when it begins and when it is over. -/
inductive Event where
  | output (chunk : String)
  | clearConsole
  | canvas (command : CanvasCommand)
  | wait (ms : Float)
  | waited (ms : Float)
  | fileRead (path : String)
  | fileWritten (path contents : String)
  | listed (path : String)
  | executed (command : String)

structure Recorder where
  files : List (String × String)
  events : List Event
  seed : Nat

namespace Recorder

def putFile (path contents : String) : List (String × String) → List (String × String)
  | [] => [(path, contents)]
  | (p, c) :: rest =>
    if p = path then (path, contents) :: rest
    else if path < p then (path, contents) :: (p, c) :: rest
    else (p, c) :: putFile path contents rest

def ofFiles (files : List (String × String)) : Recorder :=
  ⟨files.foldl (fun fs f => putFile f.1 f.2 fs) [], [], 1⟩

def note (r : Recorder) (e : Event) : Recorder := { r with events := e :: r.events }

def takeEvents (r : Recorder) : List Event × Recorder := (r.events.reverse, { r with events := [] })

def nextSeed (seed : Nat) : Nat :=
  (seed * 6364136223846793005 + 1442695040888963407) % Number.pow2 64

def fraction (seed : Nat) : Float :=
  Float.ofNat (seed / Number.pow2 11) / Float.ofNat (Number.pow2 53)

def readFile (r : Recorder) (path : String) : Except String String :=
  match r.files.lookup path with
  | some contents => .ok contents
  | none => .error ("no such file: " ++ path)

/-- Every file lies in every directory, and so does one more directory. -/
def entries (r : Recorder) (path : String) : Except String (List DirEntry) :=
  if path = "missing" then .error "no such directory"
  else .ok (r.files.map (fun f => ⟨f.1, .file⟩) ++ [⟨"sub", .directory⟩])

def output (command : String) : Except String String :=
  match command.toList with
  | 'b' :: 'a' :: 'd' :: rest => .error ("exit status" ++ String.ofList rest)
  | _ => .ok ("ran " ++ command ++ "\n")

def answer : (q : Request) → Recorder → q.Reply × Recorder
  | .output chunk, r => ((), r.note (.output chunk))
  | .clearConsole, r => ((), r.note .clearConsole)
  | .canvas command, r => ((), r.note (.canvas command))
  | .wait ms, r => ((), (r.note (.wait ms)).note (.waited ms))
  | .random, r => (fraction r.seed, { r with seed := nextSeed r.seed })
  | .readFile path, r => (r.readFile path, r.note (.fileRead path))
  | .writeFile path contents, r =>
    let r := r.note (.fileWritten path contents)
    if path = "" then (.error "empty path", r)
    else (.ok (), { r with files := putFile path contents r.files })
  | .readDir path, r => (r.entries path, r.note (.listed path))
  | .exec command, r => (output command, r.note (.executed command))

end Recorder

def Host.recording : Host Recorder := ⟨Recorder.answer⟩

end CanvasScript
