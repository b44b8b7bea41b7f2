
namespace CanvasScript.Number

abbrev pow2 (k : Nat) : Nat := Nat.pow 2 k

abbrev pow10 (k : Nat) : Nat := Nat.pow 10 k

end CanvasScript.Number
