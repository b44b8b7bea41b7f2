import CanvasScript.Token.Scan
import CanvasScript.Tree.Parse

namespace CanvasScript

inductive Segment where
  | text (s : String)
  | expr (source : String)
deriving DecidableEq, Repr

namespace Marker

def body? : List Char → Option (List Char)
  | '{' :: rest =>
    let inner := rest.takeWhile fun c => c ≠ '}' && c ≠ '\n'
    if (rest.drop inner.length).head? = some '}' then some inner else none
  | _ => none

def flush (gathered : List Char) : List Segment :=
  if gathered.isEmpty then [] else [.text (String.ofList gathered.reverse)]

/-- The segments of what follows `gathered`; `skip` characters still belong to the last marker. -/
def segmentsFrom (skip : Nat) (gathered : List Char) : List Char → List Segment
  | [] => flush gathered
  | c :: rest =>
    match skip with
    | skip + 1 => segmentsFrom skip gathered rest
    | 0 =>
      match if c = '$' then body? rest else none with
      | some inner =>
        flush gathered ++ .expr (String.ofList inner) :: segmentsFrom (inner.length + 2) [] rest
      | none => segmentsFrom 0 (c :: gathered) rest

def segments (s : String) : List Segment := segmentsFrom 0 [] s.toList

/-- The expression at the start of a marker's source; what follows it does not count. -/
def parse (source : String) (p : Position) : Except (List Diagnostic) Expr := do
  let ts ← TokenStream.ofSource source p
  ts.expression.mapError fun d => [d]

end Marker

def parseProgram (source : String) (p : Position) : Except (List Diagnostic) (List Stmt) := do
  let ts ← TokenStream.ofSource source p
  ts.program.mapError fun d => [d]

def parseExpression (source : String) (p : Position) : Except (List Diagnostic) Expr :=
  Marker.parse source p

end CanvasScript
