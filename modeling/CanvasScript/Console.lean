import CanvasScript.Json.Write
import CanvasScript.Value.Operators

namespace CanvasScript.Console

inductive Container where
  | array (r : ArrayRef)
  | object (r : ObjectRef)
deriving DecidableEq, Repr

structure Circular where

def numberJson (x : Float) : Json :=
  if Number.isWhole x && x.abs < 9007199254740992.0 then .int (Number.toInt x)
  else if x.isFinite then .real x
  else .null

/-- The document for a value inside the containers of `path`; none for values that JSON has no
spelling for. Each level down adds a container to the path, so that one more level than the heap has
containers is never reached. -/
def toJson (h : Heap) : Nat → List Container → Value → Except Circular (Option Json)
  | _, _, .number x => .ok (some (numberJson x))
  | _, _, .text s => .ok (some (.str s))
  | _, _, .bool b => .ok (some (.bool b))
  | _, _, .null => .ok (some .null)
  | _, _, .undefined => .ok none
  | _, _, .function _ => .ok none
  | _, _, .native _ => .ok none
  | _, _, .method _ _ => .ok none
  | 0, _, _ => .error ⟨⟩
  | depth + 1, path, .array r =>
    if path.contains (.array r) then .error ⟨⟩
    else do
      let items ← (h.items r).toList.mapM fun v => toJson h depth (.array r :: path) v
      return some (.array (items.map (·.getD .null)))
  | depth + 1, path, .object r =>
    if path.contains (.object r) then .error ⟨⟩
    else do
      let fields ← (h.fields r).entries.mapM fun e =>
        (toJson h depth (.object r :: path) e.2).map fun j? => j?.map fun j => (Json.Text.of e.1, j)
      return some (.object (fields.filterMap id))

def formatArg (h : Heap) (v : Value) : String :=
  match v with
  | .array _ | .object _ =>
    match toJson h (h.size + 1) [] v with
    | .ok (some j) => j.pretty
    | .ok none => ""
    | .error _ => "[Circular Object]"
  | .null | .undefined => ""
  | v => v.display h

def formatArgs (h : Heap) (args : List Value) : String :=
  " ".intercalate (args.map (formatArg h))

def yellow : String := "\x1b[33m"
def red : String := "\x1b[31m"
def plainColor : String := "\x1b[0m"

end CanvasScript.Console
