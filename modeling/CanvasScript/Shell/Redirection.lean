import CanvasScript.Shell.Expansion

namespace CanvasScript.Shell

open Text (Octets)

namespace Redirection

def reason (absent : Octets) (e : FileError) : Octets :=
  if e = .notFound || e = .notADirectory then absent else e.brief

def lead (descriptor : Nat) (c : Channel) : Task Unit :=
  modify fun m =>
    let (m, number) := m.addChannel c
    m.setDescriptor descriptor number

def openToRead (descriptor : Nat) (path : Octets) : Task (Except Octets Unit) := do
  match (← get).disk.find path with
  | .ok (_, .sink) => return .ok (← lead descriptor .sink)
  | .ok (names, _) => return .ok (← lead descriptor (.file names 0 false))
  | .error e => return .error ("cannot open " ++ path ++ ": " ++ reason "No such file" e)

def openToWrite (descriptor : Nat) (path : Octets) (append : Bool) :
    Task (Except Octets Unit) := do
  let m ← get
  match m.disk.openToWrite path with
  | .error e =>
    return .error ("cannot create " ++ path ++ ": " ++ reason "Directory nonexistent" e)
  | .ok (names, d) =>
    set { m with disk := if append then d else d.setContents names "" }
    match d.root.at? names with
    | some .sink => return .ok (← lead descriptor .sink)
    | _ => return .ok (← lead descriptor (.file names 0 append))

def copy (descriptor : Nat) (source : Octets) : Task (Except Octets Unit) := do
  let m ← get
  if source = "-" then return .ok (← set (m.closeDescriptor descriptor))
  match if source.length = 1 then source.toNat? else none with
  | none => Task.fail "Syntax error: Bad fd number"
  | some n =>
    match m.descriptors.lookup n with
    | some number => return .ok (← set (m.setDescriptor descriptor number))
    | none => return .error (source ++ ": " ++ FileError.badDescriptor.brief)

def apply (r : Runner) : Redirection → Task (Except Octets Unit)
  | .mk descriptor kind target => do
    let word ← Expansion.text r target
    match kind with
    | .input => openToRead descriptor word
    | .output => openToWrite descriptor word false
    | .append => openToWrite descriptor word true
    | .duplicate => copy descriptor word

def applyAll (r : Runner) : List Redirection → Task Bool
  | [] => return true
  | first :: rest => do
    match ← apply r first with
    | .ok () => applyAll r rest
    | .error complaint =>
      Task.complain complaint
      return false

/-- Runs something while redirections hold. If one of them fails it is not run, and the answer is
`false`. -/
def during (r : Runner) (rs : List Redirection) (body : Task Unit) : Task Bool := do
  let before := (← get).descriptors
  Task.finally_ (do
    if ← applyAll r rs then
      body
      return true
    else
      Task.setStatus 2
      return false) (modify fun m => { m with descriptors := before })

end Redirection

end CanvasScript.Shell
