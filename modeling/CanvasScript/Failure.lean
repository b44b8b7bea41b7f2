import CanvasScript.Diagnostic
import CanvasScript.Value

namespace CanvasScript

inductive CalleeName where
  | named (name : String)
  | ofKind (k : Kind)

def CalleeName.describe : CalleeName → String
  | named name => "`" ++ name ++ "`"
  | ofKind k => k.name ++ " value"

inductive Failure where
  | undefinedVariable (name : String)
  | notAFunction (what : CalleeName)
  | readProperty (property : String) (owner : Kind)
  | readIndex (index : String) (owner : Kind)
  | setProperty (property : String) (owner : Kind)
  | arrayLength (shown : String)
  | arrayIndex (index : Nat)
  | callDepth (name : String) (depth : Nat)
  | marker (source : String) (problems : List Diagnostic)
  | receiver (wanted found : Kind)
  | host (native reason : String)
  | custom (message : String)

def Failure.message : Failure → String
  | undefinedVariable name => "undefined variable `" ++ name ++ "`"
  | notAFunction what => what.describe ++ " is not a function"
  | readProperty property owner =>
    "cannot read property `" ++ property ++ "` of " ++ owner.name
  | readIndex index owner => "cannot read index `" ++ index ++ "` of " ++ owner.name
  | setProperty property owner => "cannot set property `" ++ property ++ "` of " ++ owner.name
  | arrayLength shown => "invalid array length " ++ shown
  | arrayIndex index => "array index " ++ toString index ++ " is too large"
  | callDepth _ _ => "maximum call depth exceeded"
  | marker source problems =>
    "in `$\x7b" ++ source ++ "\x7d`: " ++ "; ".intercalate (problems.map Diagnostic.message)
  | receiver wanted found =>
    "expected " ++ wanted.name ++ " receiver, got " ++ found.name
  | host native reason => native ++ ": " ++ reason
  | custom message => message

/-- A failure and the line it is blamed on. Host functions know no lines and give zero; the call
then fills in its own. -/
structure RuntimeError where
  line : Nat
  failure : Failure

def RuntimeError.message (e : RuntimeError) : String := e.failure.message

def RuntimeError.display (e : RuntimeError) : String :=
  "[runtime] line " ++ toString e.line ++ ": " ++ e.message

def RuntimeError.attribute (e : RuntimeError) (line : Nat) : RuntimeError :=
  if e.line = 0 then { e with line := line } else e

/-- What unwinds an evaluation. Function calls catch `returned`, loops catch `break_` and
`continue_`, and nothing inside a run catches the others. -/
inductive Interrupt where
  | returned (v : Value)
  | break_
  | continue_
  | exit
  | error (e : RuntimeError)

def Interrupt.attribute (i : Interrupt) (line : Nat) : Interrupt :=
  match i with
  | error e => error (e.attribute line)
  | i => i

end CanvasScript
