
namespace CanvasScript.Text

def find? (needle : List Char) : List Char → Option Nat
  | [] => if needle.isEmpty then some 0 else none
  | c :: cs =>
    if needle.isPrefixOf (c :: cs) then some 0 else (find? needle cs).map (· + 1)

def consFirst (c : Char) : List (List Char) → List (List Char)
  | [] => [[c]]
  | piece :: pieces => (c :: piece) :: pieces

def splitFrom (separator : List Char) : Nat → List Char → List (List Char)
  | _, [] => [[]]
  | skip + 1, _ :: cs => splitFrom separator skip cs
  | 0, c :: cs =>
    if separator.isPrefixOf (c :: cs) then [] :: splitFrom separator (separator.length - 1) cs
    else consFirst c (splitFrom separator 0 cs)

/-- The pieces between the occurrences of a separator; an empty one parts all characters. -/
def split (separator text : List Char) : List (List Char) :=
  if separator.isEmpty then text.map fun c => [c] else splitFrom separator 0 text

def replaceFirst (needle replacement text : List Char) : List Char :=
  match find? needle text with
  | some k => text.take k ++ replacement ++ text.drop (k + needle.length)
  | none => text

end CanvasScript.Text
