import CanvasScript.Heap
import CanvasScript.Number.Layout

namespace CanvasScript.Value

def functionText (name : String) (params : List String) (body : String) : String :=
  "function " ++ name ++ "(" ++ ", ".intercalate params ++ ") \x7b " ++ body ++ " \x7d"

/-- The text of a value inside the arrays of `path`. Each level down adds an array to the path, so
that one more level than the heap has arrays is never reached. -/
def displayIn (h : Heap) : Nat → List ArrayRef → Value → String
  | _, _, number x => Number.Layout.script.text x
  | _, _, text s => s
  | _, _, bool b => if b then "true" else "false"
  | _, _, null => "null"
  | _, _, undefined => "undefined"
  | _, _, object _ => "[object Object]"
  | _, _, function f => functionText f.decl.name f.decl.params "..."
  | _, _, native n => functionText n.name [] "[native code]"
  | _, _, method _ m => functionText m.name [] "[native code]"
  | 0, _, array _ => ""
  | depth + 1, path, array r =>
    if path.contains r then ""
    else
      ",".intercalate <| (h.items r).toList.map fun v =>
        if v.isNullish then "" else displayIn h depth (r :: path) v

def display (h : Heap) (v : Value) : String := displayIn h (h.arrays.size + 1) [] v

end CanvasScript.Value
