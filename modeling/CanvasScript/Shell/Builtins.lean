import CanvasScript.OperatingSystem
import CanvasScript.Shell.Condition
import CanvasScript.Shell.Expansion
import CanvasScript.Shell.Printing
import CanvasScript.Shell.Programs.Showing

namespace CanvasScript.Shell

open Text (Octets)

namespace Builtin

def numberOf (usual : Nat) : List Octets → Task Nat
  | [] => return usual
  | a :: _ =>
    match count? a with
    | some n => return n
    | none => Task.fail ("Illegal number: " ++ a)

def exit (args : List Octets) : Task Nat := do
  throw (.exit ((← numberOf (← get).status args) % 256))

def leaveLoops (stop : Nat → Stop) (args : List Octets) : Task Nat := do
  let n ← numberOf 1 args
  let loops := (← get).loops
  if n = 0 then Task.fail "Illegal number: 0"
  else if loops = 0 then return 0
  else throw (stop (min n loops))

def checkName (whole name : Octets) : Task Unit := do
  unless isName name do Task.fail (whole ++ ": bad variable name")

def export_ (args : List Octets) : Task Nat := do
  args.forM fun a => do
    let name := String.ofList (a.toList.takeWhile (· ≠ '='))
    checkName a name
    modify fun m =>
      let old := (m.value? name).getD ""
      m.setVariable name ⟨if name = a then old else (a.drop (name.length + 1)).toString, true⟩
  return 0

def unset (args : List Octets) : Task Nat := do
  args.forM fun name => do
    checkName name name
    modify (·.dropVariable name)
  return 0

def plainPath (path : Octets) : Octets :=
  let names := (path.splitOn "/").foldl (fun done step =>
    if step = "" || step = "." then done
    else if step = ".." then done.tail
    else step :: done) ([] : List Octets)
  "/" ++ "/".intercalate names.reverse

def cd (args : List Octets) : Task Nat := do
  let m ← get
  let target := match args with
    | [] => (m.value? "HOME").getD ""
    | "-" :: _ => (m.value? "OLDPWD").getD m.path
    | a :: _ => a
  let path := plainPath (if target.startsWith "/" then target else m.path ++ "/" ++ target)
  match m.disk.find (if target.isEmpty then "." else target) with
  | .ok (names, .directory _) =>
    let m := (m.setValue "OLDPWD" m.path).setValue "PWD" path
    set { m with disk := { m.disk with here := names }, path := path }
    if args.head? = some "-" then Task.print (path ++ "\n")
    return 0
  | _ => Task.misused ("can't cd to " ++ target)

def pwd (_ : List Octets) : Task Nat := do
  Task.print ((← get).path ++ "\n")
  return 0

def signal? (text : Octets) : Option Nat :=
  match count? text with
  | some n => some n
  | none => (Termination.signalNames.idxOf? ("SIG" ++ text.toUpper)).map (· + 1)

/-- The signals that a process survives that does not handle them, among them zero. -/
def isHarmless (signal : Nat) : Bool := signal = 0 || signal ∈ [17, 18, 23, 28]

/-- The shell itself is the only process that there is to be sent signals. -/
def kill (args : List Octets) : Task Nat := do
  let (signal, targets) : Option Nat × List Octets := match args with
    | "-s" :: name :: rest => (signal? name, rest)
    | a :: rest => if a.startsWith "-" then (signal? (a.drop 1).toString, rest) else (some 15, args)
    | [] => (some 15, [])
  match signal, targets with
  | none, _ => Task.misused ("Illegal option " ++ ((args.headD "").take 2).toString)
  | some _, [] =>
    Task.misused ("Usage: kill [-s sigspec | -signum | -sigspec] [pid | job]... or\n" ++
      "kill -l [exitstatus]")
  | some signal, targets =>
    if targets.contains (toString Expansion.process) then
      if isHarmless signal then return 0 else throw (.killed signal)
    else
      match targets.find? fun t => (count? t).isNone with
      | some t => Task.misused ("Illegal number: " ++ t)
      | none =>
        Task.complain "No such process\n"
        return 1

def test (name : Octets) (args : List Octets) : Task Nat := do
  match Condition.value (← get).disk name args with
  | .ok b => return if b then 0 else 1
  | .error fault => Task.misused fault.message

def echo (args : List Octets) : Task Nat := do
  match (← get).write 1 (Shell.echo args) with
  | .ok m =>
    set m
    return 0
  | .error _ =>
    Task.complain "echo: I/O error"
    return 1

/-- The builtins whose errors end the shell. -/
def special? (name : Octets) : Option (List Octets → Task Nat) :=
  match name with
  | ":" => some fun _ => return 0
  | "exit" => some exit
  | "return" => some exit
  | "break" => some (leaveLoops .break_)
  | "continue" => some (leaveLoops .continue_)
  | "export" => some export_
  | "unset" => some unset
  | _ => none

def plain? (name : Octets) : Option (List Octets → Task Nat) :=
  match name with
  | "true" => some fun _ => return 0
  | "false" => some fun _ => return 1
  | "echo" => some echo
  | "printf" => some printf
  | "test" => some (test "test")
  | "[" => some (test "[")
  | "cd" => some cd
  | "pwd" => some pwd
  | "kill" => some kill
  | "wait" => some fun _ => return 0
  | _ => none

def speaking (name : Octets) (body : Task Nat) : Task Nat := do
  modify fun m => { m with speaker := some name }
  Task.finally_ body (modify fun m => { m with speaker := none })

def find? (name : Octets) : Option (List Octets → Task Nat) :=
  match special? name, plain? name with
  | some body, _ => some fun args => speaking name (body args)
  | none, some body => some fun args => do
    try speaking name (body args)
    catch
      | .error => return 2
      | stop => throw stop
  | none, none => none

end Builtin

end CanvasScript.Shell
