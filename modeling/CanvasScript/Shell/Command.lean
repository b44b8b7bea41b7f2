import CanvasScript.Text.Octets

namespace CanvasScript.Shell

open Text (Octets)

inductive RedirectionKind where
  | input
  | output
  | append
  | duplicate
deriving DecidableEq

mutual

inductive Part where
  | text (chars : List Char) (quoted : Bool)
  | parameter (name : Octets) (quoted : Bool)
  | command (body : Command) (quoted : Bool)
  | arithmetic (body : List Part) (quoted : Bool)

inductive Redirection where
  | mk (descriptor : Nat) (kind : RedirectionKind) (target : List Part)

inductive Command where
  | nothing
  | simple (line : Nat) (assignments : List (Octets × List Part)) (words : List (List Part))
      (redirections : List Redirection)
  | pipeline (commands : List Command)
  | negation (body : Command)
  | sequence (first second : Command)
  | both (first second : Command)
  | either (first second : Command)
  | subshell (line : Nat) (body : Command)
  | redirected (line : Nat) (body : Command) (redirections : List Redirection)
  | choice (condition body otherwise : Command)
  | loop (until_ : Bool) (condition body : Command)
  | count (line : Nat) (name : Octets) (words : List (List Part)) (body : Command)

end

abbrev Word := List Part

instance : Inhabited Command := ⟨.nothing⟩

def Part.plain? : Word → Option Octets
  | [.text cs false] => some (String.ofList cs)
  | _ => none

def isNameStart (c : Char) : Bool := c.isAlpha || c = '_'

def continuesName (c : Char) : Bool := c.isAlphanum || c = '_'

def isName (s : Octets) : Bool :=
  match s.toList with
  | c :: cs => isNameStart c && cs.all continuesName
  | [] => false

def Part.assignment? : Word → Option (Octets × Word)
  | .text cs false :: rest =>
    let name := cs.takeWhile continuesName
    match cs.drop name.length with
    | '=' :: value =>
      if isName (String.ofList name) then
        some (String.ofList name, if value.isEmpty then rest else .text value false :: rest)
      else none
    | _ => none
  | _ => none

end CanvasScript.Shell
