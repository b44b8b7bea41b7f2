
namespace CanvasScript

structure Resolution where
  x : Nat
  y : Nat
deriving DecidableEq, Repr

/-- The channels are whatever numbers a script gave; none is clamped. -/
structure Color where
  r : Float
  g : Float
  b : Float

def Color.black : Color := ⟨0.0, 0.0, 0.0⟩

structure CanvasSettings where
  resolution : Resolution
  background : Color

def CanvasSettings.standard : CanvasSettings := ⟨⟨128, 64⟩, .black⟩

inductive CanvasCommand where
  | rect (x y width height : Float) (color : Color)
  | pixel (x y : Float) (color : Color)
  | clear (color : Color)

end CanvasScript
