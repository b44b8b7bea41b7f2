
namespace CanvasScript

namespace Json

inductive Numeral where
  | whole (n : Int)
  | real (x : Float)
  | outOfRange

/-- A text; `sound` says that no half of a surrogate pair stands alone in it. -/
structure Text where
  value : String
  sound : Bool

def Text.of (s : String) : Text := ⟨s, true⟩

end Json

inductive Json where
  | null
  | bool (b : Bool)
  | number (n : Json.Numeral)
  | text (s : Json.Text)
  | array (items : List Json)
  | object (fields : List (Json.Text × Json))

instance : Inhabited Json := ⟨.null⟩

namespace Json

def str (s : String) : Json := .text (.of s)

def int (n : Int) : Json := .number (.whole n)

def nat (n : Nat) : Json := .number (.whole n)

def real (x : Float) : Json := .number (.real x)

def record (fields : List (String × Json)) : Json :=
  .object (fields.map fun f => (.of f.1, f.2))

/-- The value under a key of an object; of several the last. -/
def field? (key : String) : Json → Option Json
  | .object fields => (fields.reverse.find? fun f => f.1.value == key).map (·.2)
  | _ => none

def text? : Json → Option String
  | .text s => if s.sound then some s.value else none
  | _ => none

def bool? : Json → Option Bool
  | .bool b => some b
  | _ => none

end Json

end CanvasScript
