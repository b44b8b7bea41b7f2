import CanvasScript.Json.Write
import CanvasScript.Settings

namespace CanvasScript

namespace Json

/-- A record that is being read: for each field in order, its document if there is one. -/
abbrev Slots := List (Option Json)

def unique? (key : String) (fields : List (Text × Json)) : Option (Option Json) :=
  match fields.filter fun f => f.1.value = key with
  | [] => some none
  | [f] => some (some f.2)
  | _ => none

def slots? (names : List String) : Json → Option Slots
  | .object fields =>
    if fields.all (·.1.sound) then names.mapM (unique? · fields) else none
  | .array items =>
    if items.length ≤ names.length then
      some ((items.map some) ++ List.replicate (names.length - items.length) none)
    else none
  | _ => none

def orElse {α : Type} (default : α) (read : Json → Option α) : Option Json → Option α
  | none => some default
  | some j => read j

def float? : Json → Option Float
  | .number (.whole n) => some (Number.nearest (n < 0) n.natAbs 1)
  | .number (.real x) => some x
  | _ => none

def below? (bound : Nat) : Json → Option Nat
  | .number (.whole n) => if 0 ≤ n ∧ n < bound then some n.toNat else none
  | _ => none

end Json

open Json (orElse)

def Resolution.ofJson? (j : Json) : Option Resolution := do
  match ← j.slots? ["x", "y"] with
  | [some x, some y] => return ⟨← x.below? (Number.pow2 32), ← y.below? (Number.pow2 32)⟩
  | _ => none

def Color.ofJson? (j : Json) : Option Color := do
  match ← j.slots? ["r", "g", "b"] with
  | [some r, some g, some b] => return ⟨← r.float?, ← g.float?, ← b.float?⟩
  | _ => none

def CanvasSettings.ofJson? (j : Json) : Option CanvasSettings := do
  match ← j.slots? ["resolution", "background"] with
  | [resolution, background] =>
    return ⟨← orElse standard.resolution Resolution.ofJson? resolution,
      ← orElse standard.background Color.ofJson? background⟩
  | _ => none

def Config.ofJson? (j : Json) : Option Config := do
  match ← j.slots? ["version", "editor", "autosave"] with
  | [version, editor, autosave] =>
    return ⟨← orElse standard.version Json.text? version,
      ← orElse standard.editor Json.text? editor, ← orElse standard.autosave Json.bool? autosave⟩
  | _ => none

def Settings.fieldNames : List String :=
  ["canvas", "enableFilesystem", "enableShell", "config", "maxCallDepth"]

def Settings.ofJson? (j : Json) : Option Settings := do
  match ← j.slots? fieldNames with
  | [canvas, enableFilesystem, enableShell, config, maxCallDepth] =>
    return ⟨← orElse standard.canvas CanvasSettings.ofJson? canvas,
      ← orElse standard.enableFilesystem Json.bool? enableFilesystem,
      ← orElse standard.enableShell Json.bool? enableShell,
      ← orElse standard.config Config.ofJson? config,
      ← orElse standard.maxCallDepth (Json.below? (Number.pow2 64)) maxCallDepth⟩
  | _ => none

def Color.toJson (c : Color) : Json :=
  .record [("r", .real c.r), ("g", .real c.g), ("b", .real c.b)]

def Resolution.toJson (r : Resolution) : Json := .record [("x", .nat r.x), ("y", .nat r.y)]

def CanvasSettings.toJson (c : CanvasSettings) : Json :=
  .record [("resolution", c.resolution.toJson), ("background", c.background.toJson)]

def Config.toJson (c : Config) : Json :=
  .record [("version", .str c.version), ("editor", .str c.editor), ("autosave", .bool c.autosave)]

def Settings.toJson (s : Settings) : Json :=
  .record [("canvas", s.canvas.toJson), ("enableFilesystem", .bool s.enableFilesystem),
    ("enableShell", .bool s.enableShell), ("config", s.config.toJson),
    ("maxCallDepth", .nat s.maxCallDepth)]

end CanvasScript
