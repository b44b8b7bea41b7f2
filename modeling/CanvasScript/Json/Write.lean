import CanvasScript.Json
import CanvasScript.Number.Layout

namespace CanvasScript.Json

def hexDigit (n : Nat) : Char := Nat.digitChar (n % 16)

def escapedChar (c : Char) : List Char :=
  if c = '"' || c = '\\' then ['\\', c]
  else if c = '\n' then ['\\', 'n']
  else if c = '\r' then ['\\', 'r']
  else if c = '\t' then ['\\', 't']
  else if c = '\x08' then ['\\', 'b']
  else if c = '\x0c' then ['\\', 'f']
  else if c.toNat < 0x20 then ['\\', 'u', '0', '0', hexDigit (c.toNat / 16), hexDigit c.toNat]
  else [c]

def quoted (s : String) : String :=
  String.ofList ('"' :: s.toList.flatMap escapedChar ++ ['"'])

def Numeral.write : Numeral → String
  | .whole n => toString n
  | .real x => Number.Layout.json.text x
  | .outOfRange => "null"

structure Spread where
  break_ : Nat → String
  colon : String

def Spread.compact : Spread := ⟨fun _ => "", ":"⟩

def Spread.indented : Spread :=
  ⟨fun depth => "\n" ++ String.ofList (List.replicate (2 * depth) ' '), ": "⟩

mutual

def writeTo (spread : Spread) (depth : Nat) (out : String) : Json → String
  | .null => out ++ "null"
  | .bool b => out ++ (if b then "true" else "false")
  | .number n => out ++ n.write
  | .text s => out ++ quoted s.value
  | .array [] => out ++ "[]"
  | .array (item :: items) =>
    let out := writeTo spread (depth + 1) (out ++ "[" ++ spread.break_ (depth + 1)) item
    writeItems spread (depth + 1) out items ++ spread.break_ depth ++ "]"
  | .object [] => out ++ "\x7b\x7d"
  | .object ((key, value) :: fields) =>
    let out := out ++ "\x7b" ++ spread.break_ (depth + 1) ++ quoted key.value ++ spread.colon
    let out := writeTo spread (depth + 1) out value
    writeFields spread (depth + 1) out fields ++ spread.break_ depth ++ "\x7d"

def writeItems (spread : Spread) (depth : Nat) (out : String) : List Json → String
  | [] => out
  | item :: items =>
    writeItems spread depth (writeTo spread depth (out ++ "," ++ spread.break_ depth) item) items

def writeFields (spread : Spread) (depth : Nat) (out : String) : List (Text × Json) → String
  | [] => out
  | (key, value) :: fields =>
    let out := out ++ "," ++ spread.break_ depth ++ quoted key.value ++ spread.colon
    writeFields spread depth (writeTo spread depth out value) fields

end

def compact (j : Json) : String := writeTo .compact 0 "" j

def pretty (j : Json) : String := writeTo .indented 0 "" j

end CanvasScript.Json
