import CanvasScript.Canvas

namespace CanvasScript

inductive EntryKind where
  | file
  | directory
deriving DecidableEq, Repr

def EntryKind.name : EntryKind → String
  | file => "FILE"
  | directory => "DIRECTORY"

structure DirEntry where
  entry : String
  kind : EntryKind
deriving DecidableEq, Repr

inductive Request where
  | output (chunk : String)
  | clearConsole
  | canvas (command : CanvasCommand)
  | wait (ms : Float)
  | random
  | readFile (path : String)
  | writeFile (path contents : String)
  | readDir (path : String)
  | exec (command : String)

/-- What a request is answered with. Files and commands can fail for a reason in words. -/
def Request.Reply : Request → Type
  | output _ => Unit
  | clearConsole => Unit
  | canvas _ => Unit
  | wait _ => Unit
  | random => Float
  | readFile _ => Except String String
  | writeFile _ _ => Except String Unit
  | readDir _ => Except String (List DirEntry)
  | exec _ => Except String String

structure Host (σ : Type) where
  answer : (r : Request) → σ → r.Reply × σ

namespace Host

def unsupported (what : String) : String := what ++ " is not supported by this host"

def refuse : (r : Request) → r.Reply
  | .output _ => ()
  | .clearConsole => ()
  | .canvas _ => ()
  | .wait _ => ()
  | .random => (0.5 : Float)
  | .readFile _ => .error (unsupported "reading files")
  | .writeFile _ _ => .error (unsupported "writing files")
  | .readDir _ => .error (unsupported "listing directories")
  | .exec _ => .error (unsupported "running shell commands")

def silent (σ : Type) : Host σ := ⟨fun r world => (refuse r, world)⟩

/-- The same host, which keeps a list of what it was asked, the last request first. -/
def traced {σ : Type} (host : Host σ) : Host (σ × List Request) :=
  ⟨fun r world =>
    let (reply, inner) := host.answer r world.1
    (reply, inner, r :: world.2)⟩

end Host

end CanvasScript
