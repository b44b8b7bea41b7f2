import CanvasScript.Settings.Json

namespace CanvasScript.CanvasCommand

def toJson : CanvasCommand → Json
  | rect x y width height color =>
    .record [("command", .str "rect"), ("x", .real x), ("y", .real y), ("width", .real width),
      ("height", .real height), ("color", color.toJson)]
  | pixel x y color =>
    .record [("command", .str "pixel"), ("x", .real x), ("y", .real y), ("color", color.toJson)]
  | clear color => .record [("command", .str "clear"), ("color", color.toJson)]

end CanvasScript.CanvasCommand

namespace CanvasScript

mutual

def Json.depth : Json → Nat
  | .array items => Json.itemsDepth items + 1
  | .object fields => Json.fieldsDepth fields + 1
  | _ => 0

def Json.itemsDepth : List Json → Nat
  | [] => 0
  | j :: js => max (Json.depth j) (Json.itemsDepth js)

def Json.fieldsDepth : List (Json.Text × Json) → Nat
  | [] => 0
  | (_, j) :: fs => max (Json.depth j) (Json.fieldsDepth fs)

end

mutual

def Json.isSound : Json → Bool
  | .number .outOfRange => false
  | .text s => s.sound
  | .array items => Json.itemsSound items
  | .object fields => Json.fieldsSound fields
  | _ => true

def Json.itemsSound : List Json → Bool
  | [] => true
  | j :: js => Json.isSound j && Json.itemsSound js

def Json.fieldsSound : List (Json.Text × Json) → Bool
  | [] => true
  | (k, j) :: fs => k.sound && Json.isSound j && Json.fieldsSound fs

end

namespace CanvasCommand

def ofFields? (name : String) (fields : Json) : Option CanvasCommand := do
  match name with
  | "rect" =>
    match ← fields.slots? ["x", "y", "width", "height", "color"] with
    | [some x, some y, some width, some height, some color] =>
      return .rect (← x.float?) (← y.float?) (← width.float?) (← height.float?)
        (← Color.ofJson? color)
    | _ => none
  | "pixel" =>
    match ← fields.slots? ["x", "y", "color"] with
    | [some x, some y, some color] =>
      return .pixel (← x.float?) (← y.float?) (← Color.ofJson? color)
    | _ => none
  | "clear" =>
    match ← fields.slots? ["color"] with
    | [some color] => return .clear (← Color.ofJson? color)
    | _ => none
  | _ => none

/-- The command that a document holds. Unlike settings, the whole document has to be sound, and it
may nest to a fixed depth only. -/
def ofJson? (j : Json) : Option CanvasCommand := do
  if !j.isSound || 127 < j.depth then none
  else
    match j with
    | .object fields => do
      let tag ← Json.unique? "command" fields
      let name ← tag.bind Json.text?
      ofFields? name (.object (fields.filter fun f => f.1.value ≠ "command"))
    | .array (tag :: items) => do
      let name ← tag.text?
      ofFields? name (.array items)
    | _ => none

end CanvasCommand

end CanvasScript
