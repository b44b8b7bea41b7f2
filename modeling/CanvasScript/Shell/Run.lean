import CanvasScript.Shell.Builtins
import CanvasScript.Shell.Command.Grammar
import CanvasScript.Shell.Programs.Changing
import CanvasScript.Shell.Programs.Filtering
import CanvasScript.Shell.Redirection

namespace CanvasScript.Shell

open Text (Octets)

def programs : List (Octets × Program) :=
  [("cat", Program.cat), ("cp", Program.cp), ("grep", Program.grep), ("head", Program.head),
    ("ls", Program.ls), ("mkdir", Program.mkdir), ("mv", Program.mv), ("rm", Program.rm),
    ("rmdir", Program.rmdir), ("seq", Program.seq), ("sleep", Program.sleep),
    ("sort", Program.sort), ("tail", Program.tail), ("touch", Program.touch), ("tr", Program.tr),
    ("uniq", Program.uniq), ("wc", Program.wc)]

namespace Run

def tick : Task Unit := do
  let m ← get
  match m.fuel with
  | 0 => throw .outOfFuel
  | n + 1 => set { m with fuel := n }

def launch (name : Octets) (args : List Octets) : Task Nat := do
  match Builtin.find? name, programs.lookup name with
  | some body, _ => body args
  | none, some program => program name args
  | none, none =>
    if name.contains '/' && (← get).disk.has name then
      Task.complain (name ++ ": Permission denied")
      return 126
    else
      Task.complain (name ++ ": not found")
      return 127

def assign (r : Runner) (assignments : List (Octets × Word)) : Task Unit :=
  assignments.forM fun a => do
    let value ← Expansion.text r a.2
    modify (·.setValue a.1 value)

/-- Runs a command of some words once its redirections hold. What is assigned in front of a special
builtin stays. -/
def invoke (r : Runner) (assignments : List (Octets × Word)) : List Octets → Task Unit
  | [] => do
    assign r assignments
    Task.setStatus (← get).produced
  | name :: args => do
    let before := (← get).bindings
    assign r assignments
    if assignments.isEmpty || (Builtin.special? name).isSome then
      Task.setStatus (← launch name args)
    else
      Task.setStatus (← Task.finally_ (launch name args)
        (modify fun m => { m with bindings := before }))

def simple (r : Runner) (line : Nat) (assignments : List (Octets × Word)) (words : List Word)
    (redirections : List Redirection) : Task Unit := do
  tick
  modify fun m => { m with line := line, produced := 0 }
  let args := (← words.mapM (Expansion.arguments r)).flatten
  let ran ← Redirection.during r redirections (invoke r assignments args)
  if !ran && (Builtin.special? (args.headD "")).isSome then throw .error

/-- The commands of a pipeline, each in a subshell of its own; the first one reads `source`. -/
def pipeline (r : Runner) (source : Option Nat) : List Command → Task Unit
  | [] => return ()
  | c :: rest => do
    let reading (m : Machine) : Machine := (source.map (m.setDescriptor 0)).getD m
    if rest.isEmpty then Expansion.inSubshell reading (r.run c)
    else
      let (m, number) := (← get).addChannel (.pipe "")
      set m
      Expansion.inSubshell (fun m => (reading m).setDescriptor 1 number) (r.run c)
      pipeline r (some number) rest

def pass (body : Task Unit) : Task Bool := do
  try
    body
    return true
  catch
    | .break_ n => if n ≤ 1 then return false else throw (.break_ (n - 1))
    | .continue_ n => if n ≤ 1 then return true else throw (.continue_ (n - 1))
    | stop => throw stop

def looping (body : Task Unit) : Task Unit := do
  modify fun m => { m with loops := m.loops + 1 }
  Task.finally_ body (modify fun m => { m with loops := m.loops - 1 })

def repeat_ (r : Runner) (until_ : Bool) (condition body : Command) (status : Nat) :
    Nat → Task Unit
  | 0 => throw .outOfFuel
  | n + 1 => do
    tick
    if ← pass (r.run condition) then
      if ((← get).status = 0) = until_ then Task.setStatus status
      else if ← pass (r.run body) then repeat_ r until_ condition body (← get).status n
    else Task.setStatus 0

def forEach (r : Runner) (name : Octets) (body : Command) : List Octets → Task Unit
  | [] => return ()
  | w :: rest => do
    tick
    modify (·.setValue name w)
    if ← pass (r.run body) then forEach r name body rest

def command (r : Runner) : Command → Task Unit
  | .nothing => return ()
  | .simple line assignments words redirections => simple r line assignments words redirections
  | .pipeline cs => pipeline r none cs
  | .negation body => do
    r.run body
    Task.setStatus (if (← get).status = 0 then 1 else 0)
  | .sequence a b => do
    r.run a
    r.run b
  | .both a b => do
    r.run a
    if (← get).status = 0 then r.run b
  | .either a b => do
    r.run a
    if (← get).status ≠ 0 then r.run b
  | .subshell line body => do
    modify fun m => { m with line := line }
    Expansion.inSubshell id (r.run body)
  | .redirected line body redirections => do
    modify fun m => { m with line := line }
    discard (Redirection.during r redirections (r.run body))
  | .choice condition body otherwise => do
    r.run condition
    if (← get).status = 0 then r.run body
    else
      Task.setStatus 0
      r.run otherwise
  | .loop until_ condition body => do
    looping (repeat_ r until_ condition body 0 ((← get).fuel + 1))
  | .count line name words body => do
    modify fun m => { m with line := line }
    let items := (← words.mapM (Expansion.arguments r)).flatten
    Task.setStatus 0
    looping (forEach r name body items)

def runner : Nat → Runner
  | 0 => ⟨fun _ => throw .outOfFuel, fun _ => throw .outOfFuel⟩
  | n + 1 =>
    { run := command (runner n)
      expand := fun w => do return (← w.mapM (Expansion.partPieces (runner n))).flatten }

def lines (r : Runner) : Nat → Source → Task Unit
  | 0, _ => return ()
  | n + 1, source => do
    match Reader.readLine.run source with
    | .ok none _ => return ()
    | .ok (some c) source =>
      r.run c
      lines r n source
    | .error e _ =>
      modify fun m => { m with line := e.line }
      Task.fail ("Syntax error: " ++ e.message)

def deepest : Nat := 20000

def mostCommands : Nat := 1000000

def begin_ (d : Disk) (environment : List (Octets × Octets)) : Machine :=
  let path := "/" ++ "/".intercalate d.here
  let inherited := (environment.filter fun v => isName v.1).map fun v => (v.1, Variable.mk v.2 true)
  let own := [("PATH", Variable.mk Machine.defaultPath false), ("PWD", Variable.mk path false)]
  { disk := d
    channels := [.sink, .pipe "", .pipe ""]
    bindings := inherited ++ own
    descriptors := [(0, 0), (1, 1), (2, 2)]
    path := path
    status := 0
    produced := 0
    line := 1
    speaker := none
    loops := 0
    fuel := mostCommands }

/-- Runs a text of commands. A shell that runs too many of them fails. -/
def text (d : Disk) (environment : List (Octets × Octets)) (s : Octets) : CommandOutcome Disk :=
  let body := lines (runner deepest) (s.length + 1) ⟨s.toList, 1, none⟩
  let outcome (m : Machine) (t : Termination) : CommandOutcome Disk :=
    ⟨{ d with root := m.disk.root }, t, m.piped 1, m.piped 2⟩
  match (Expansion.inSubshell id body).run (begin_ d environment) with
  | .ok () m => outcome m (.exited m.status)
  | .error (.killed signal) m => outcome m (.killed signal)
  | .error _ m => outcome m (.exited 2)

end Run

end CanvasScript.Shell
