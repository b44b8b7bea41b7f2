import CanvasScript.Token

namespace CanvasScript

inductive Expectation where
  | lexeme (l : Lexeme)
  | identifier
  | propertyName
  | expression

def Expectation.describe : Expectation → String
  | lexeme l => l.describe
  | identifier => "identifier"
  | propertyName => "property name"
  | expression => "expression"

/-- `found` is `none` at the end of the text. -/
inductive Problem where
  | unexpectedCharacter (c : Char)
  | expected (what : Expectation) (found : Option Lexeme)
  | invalidAssignmentTarget
  | invalidUpdateTarget (operator : Sign) (operand : Position)
  | breakOutsideLoop
  | continueOutsideLoop

inductive Phase where
  | lex
  | parse
deriving DecidableEq, Repr

def Phase.name : Phase → String
  | lex => "lex"
  | parse => "parse"

namespace Problem

/-- Running into the end of the text has a code of its own, whatever was expected there. -/
def code : Problem → String
  | unexpectedCharacter _ => "L001"
  | expected _ none => "P003"
  | expected (.lexeme _) (some _) => "P002"
  | expected _ (some _) => "P001"
  | invalidAssignmentTarget => "P004"
  | invalidUpdateTarget _ _ => "P004"
  | breakOutsideLoop => "P005"
  | continueOutsideLoop => "P006"

def phase : Problem → Phase
  | unexpectedCharacter _ => .lex
  | _ => .parse

def message : Problem → String
  | unexpectedCharacter c => "unexpected character `" ++ c.toString ++ "`"
  | expected what found =>
    "expected " ++ what.describe ++ ", found " ++
      (found.map Lexeme.describe).getD "end of input"
  | invalidAssignmentTarget => "invalid assignment target"
  | invalidUpdateTarget operator operand =>
    "invalid update target for `" ++ operator.spelling ++ "`, expected a variable (found at " ++
      toString operand.line ++ ":" ++ toString operand.column ++ ")"
  | breakOutsideLoop => "cannot use `break` outside of a loop"
  | continueOutsideLoop => "cannot use `continue` outside of a loop"

end Problem

structure Diagnostic where
  problem : Problem
  position : Position

namespace Diagnostic

def code (d : Diagnostic) : String := d.problem.code
def message (d : Diagnostic) : String := d.problem.message

def display (d : Diagnostic) : String :=
  "[" ++ d.code ++ "] " ++ toString d.position.line ++ ":" ++ toString d.position.column ++ ": " ++
    d.message

def displayAll (ds : List Diagnostic) : String := "\n".intercalate (ds.map display)

end Diagnostic

end CanvasScript
