import CanvasScript.Proofs.Contents
import CanvasScript.Proofs.Display

namespace CanvasScript

variable {h h' h'' : Heap} {v : Value}

structure Heap.Grown (h h' : Heap) : Prop where
  size : h.arrays.size ≤ h'.arrays.size
  items : ∀ r : ArrayRef, r.index < h.arrays.size → h'.items r = h.items r

namespace Heap

theorem Grown.trans (g : h.Grown h') (g' : h'.Grown h'') : h.Grown h'' := by
  refine ⟨g.size.trans g'.size, fun r hr => ?_⟩
  rw [g'.items r (hr.trans_le g.size), g.items r hr]

theorem newArray_grown (h : Heap) (xs : Array Value) : h.Grown (h.newArray xs).2 := by
  constructor
  · show h.arrays.size ≤ (h.arrays.push xs).size
    rw [Array.size_push]
    exact Nat.le_succ _
  · intro r hr
    rw [items_newArray, if_neg hr.ne]

theorem items_newArray_self (h : Heap) (xs : Array Value) :
    (h.newArray xs).2.items (h.newArray xs).1 = xs := by
  rw [items_newArray]
  exact if_pos rfl

end Heap

namespace Value

variable {path : List ArrayRef} {depth : Nat} {r : ArrayRef}

def Made (h : Heap) (v : Value) : Prop := ∀ r, v.Reaches h r → r.index < h.arrays.size

theorem made_of_kind (hv : v.kind ≠ .array) : v.Made h := by
  intro r reached
  cases v with
  | array q => exact absurd rfl hv
  | _ => exact reached.elim

theorem Made.element (hr : (array r).Made h) (hv : v ∈ (h.items r).toList) : v.Made h := by
  intro q reached
  have behind : (array r).Reaches h q := (reached.of_element hv).to_reflTransGen
  exact hr q behind

theorem displayIn_grown (g : h.Grown h') (hv : v.Made h) :
    displayIn h' depth path v = displayIn h depth path v := by
  induction depth generalizing path v with
  | zero => cases v <;> simp only [displayIn]
  | succ depth ih =>
    cases v with
    | array r =>
      have same : h'.items r = h.items r := g.items r (hv r .refl)
      have elements : ∀ w ∈ (h.items r).toList,
          displayIn h' depth (r :: path) w = displayIn h depth (r :: path) w :=
        fun w hw => ih (hv.element hw)
      rw [displayIn_array, displayIn_array, same]
      by_cases open_ : r ∈ path
      · rw [if_pos open_, if_pos open_]
      · rw [if_neg open_, if_neg open_]
        congr 1
        exact List.map_congr_left fun w hw => by rw [elements w hw]
    | _ => simp only [displayIn]

theorem displayIn_of_le {depth' : Nat} (hd : unopened h.arrayRefs path < depth)
    (le : depth ≤ depth') (v : Value) :
    displayIn h depth' path v = displayIn h depth path v := by
  induction depth', le using Nat.le_induction with
  | base => rfl
  | succ more le ih => rw [displayIn_succ (hd.trans_le le), ih]

theorem display_grown (g : h.Grown h') (hv : v.Made h) : v.display h' = v.display h := by
  have enough : unopened h.arrayRefs [] < h.arrays.size + 1 :=
    Nat.lt_succ_of_le (h.unopened_arrayRefs_le [])
  have deeper : h.arrays.size + 1 ≤ h'.arrays.size + 1 := Nat.succ_le_succ g.size
  calc v.display h'
    _ = displayIn h (h'.arrays.size + 1) [] v := displayIn_grown g hv
    _ = v.display h := displayIn_of_le enough deeper v

theorem toNumber_grown (g : h.Grown h') (hv : v.Made h) : v.toNumber h' = v.toNumber h := by
  cases v with
  | array r =>
    have text := display_grown g hv
    rw [toNumber, toNumber, text]
  | _ => rfl

end Value

namespace Method

variable {args : List Value}

theorem relativeIndex_grown (g : h.Grown h') (hv : v.Made h) (length default : Nat) :
    relativeIndex h' v length default = relativeIndex h v length default := by
  have number := Value.toNumber_grown g hv
  cases v with
  | undefined => rfl
  | _ => simp only [relativeIndex, number]

theorem arg_made (made : ∀ v ∈ args, v.Made h) (i : Nat) : (Value.arg args i).Made h := by
  rw [Value.arg, List.getD_eq_getElem?_getD]
  cases hv : args[i]? with
  | none => exact Value.made_of_kind nofun
  | some v => exact made v (List.mem_of_getElem? hv)

theorem cut_grown {α : Type} (g : h.Grown h') (made : ∀ v ∈ args, v.Made h) (xs : List α) :
    cut h' xs args = cut h xs args := by
  simp only [cut, relativeIndex_grown g (arg_made made _)]

theorem separator_grown (g : h.Grown h') (hv : v.Made h) : separator h' v = separator h v := by
  have text := Value.display_grown g hv
  cases v with
  | undefined => rfl
  | _ => exact text

end Method

end CanvasScript
