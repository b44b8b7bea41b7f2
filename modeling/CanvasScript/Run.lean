import CanvasScript.Bindings
import CanvasScript.Evaluator

namespace CanvasScript

structure Program where
  unit : Nat
  statements : List Stmt

inductive Signal where
  | returned
  | break_
  | continue_
deriving DecidableEq, Repr

def Signal.name : Signal → String
  | returned => "return"
  | break_ => "break"
  | continue_ => "continue"

inductive Ending where
  | finished
  | exited
  | failed (e : RuntimeError)
  | stray (s : Signal)
  | outOfFuel

def Ending.of : Except Stop Unit → Ending
  | .ok () => .finished
  | .error (.interrupt .exit) => .exited
  | .error (.interrupt (.error e)) => .failed e
  | .error (.interrupt (.returned _)) => .stray .returned
  | .error (.interrupt .break_) => .stray .break_
  | .error (.interrupt .continue_) => .stray .continue_
  | .error .outOfFuel => .outOfFuel

/-- More fuel than any run can use up in practice. -/
def ampleFuel : Nat := Number.pow10 18

variable {σ : Type}

def State.compile (s : State σ) (source : String) :
    Except (List Diagnostic) Program × State σ :=
  match parseProgram source .start with
  | .ok body => (.ok ⟨s.units, body⟩, { s with units := s.units + 1 })
  | .error ds => (.error ds, s)

def Program.run (p : Program) (env : Embedding σ) (fuel : Nat) (s : State σ) : Ending × State σ :=
  let (outcome, s) := Evaluator.block env fuel p.unit p.statements { s with depth := 0 }
  (Ending.of outcome, s)

inductive Interpreted where
  | rejected (problems : List Diagnostic)
  | ended (e : Ending)

def interpret (env : Embedding σ) (fuel : Nat) (source : String) (s : State σ) :
    Interpreted × State σ :=
  match s.compile source with
  | (.error ds, s) => (.rejected ds, s)
  | (.ok p, s) =>
    let (e, s) := p.run env fuel s
    (.ended e, s)

def evaluate (env : Embedding σ) (fuel : Nat) (e : Expr) (s : State σ) :
    Except Stop Value × State σ :=
  Evaluator.expr env fuel e { s with depth := 0 }

def callValue (env : Embedding σ) (fuel : Nat) (callee : Value) (args : List Value) (line : Nat)
    (s : State σ) : Except Stop Value × State σ :=
  Evaluator.call env fuel callee args line { s with depth := 0 }

end CanvasScript
