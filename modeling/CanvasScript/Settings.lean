import CanvasScript.Canvas

namespace CanvasScript

structure Config where
  version : String
  editor : String
  autosave : Bool
deriving DecidableEq, Repr

def Config.standard : Config := ⟨"1.0", "unknown", false⟩

structure Settings where
  canvas : CanvasSettings
  enableFilesystem : Bool
  enableShell : Bool
  config : Config
  maxCallDepth : Nat

def Settings.standard : Settings := ⟨.standard, false, false, .standard, 256⟩

end CanvasScript
