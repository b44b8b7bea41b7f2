import CanvasScript.Proofs.Traversals
import CanvasScript.Value.Display

namespace CanvasScript

def Heap.Nests (h : Heap) (r q : ArrayRef) : Prop := .array q ∈ h.items r

def Heap.arrayRefs (h : Heap) : Finset ArrayRef :=
  (Finset.range h.arrays.size).image ArrayRef.mk

theorem Heap.unopened_arrayRefs_le (h : Heap) (path : List ArrayRef) :
    unopened h.arrayRefs path ≤ h.arrays.size :=
  calc unopened h.arrayRefs path
    _ ≤ h.arrayRefs.card := unopened_le _ _
    _ ≤ (Finset.range h.arrays.size).card := Finset.card_image_le
    _ = h.arrays.size := Finset.card_range _

theorem Heap.mem_arrayRefs {h : Heap} {r : ArrayRef} {v : Value} (hv : v ∈ (h.items r).toList) :
    r ∈ h.arrayRefs := by
  have made : r.index < h.arrays.size := by
    by_contra beyond
    have none : h.items r = #[] := by simp [Heap.items, Array.getD, beyond]
    simp [none] at hv
  exact Finset.mem_image.2 ⟨r.index, Finset.mem_range.2 made, rfl⟩

namespace Value

variable {h : Heap} {path : List ArrayRef} {depth : Nat} {v : Value} {r : ArrayRef}

def convert (h : Heap) : Nat → Value → StateT (List ArrayRef) Option String
  | 0, _ => fun _ => none
  | depth + 1, array r => do
    if (← get).contains r then return ""
    modify (r :: ·)
    let texts ← (h.items r).toList.mapM fun v =>
      if v.isNullish then pure "" else convert h depth v
    modify List.tail
    return ",".intercalate texts
  | _ + 1, v => pure (display h v)

def displayUnder (h : Heap) (path : List ArrayRef) (v : Value) : String :=
  displayIn h (h.arrays.size + 1) path v

theorem displayUnder_nil (h : Heap) (v : Value) : displayUnder h [] v = display h v := rfl

theorem displayIn_array (depth : Nat) (path : List ArrayRef) (r : ArrayRef) :
    displayIn h (depth + 1) path (array r) =
      if r ∈ path then ""
      else ",".intercalate <| (h.items r).toList.map fun v =>
        if v.isNullish then "" else displayIn h depth (r :: path) v := by
  simp only [displayIn, List.contains_iff_mem]

theorem enough_for_element (hd : unopened h.arrayRefs path < depth + 1) (hr : r ∉ path)
    (hv : v ∈ (h.items r).toList) : unopened h.arrayRefs (r :: path) < depth := by
  have fewer := unopened_cons_lt (Heap.mem_arrayRefs hv) hr
  omega

theorem displayIn_succ (hd : unopened h.arrayRefs path < depth) (v : Value) :
    displayIn h (depth + 1) path v = displayIn h depth path v := by
  induction depth generalizing path v with
  | zero => exact absurd hd (Nat.not_lt_zero _)
  | succ depth ih =>
    cases v with
    | array r =>
      rw [displayIn_array, displayIn_array]
      by_cases hr : r ∈ path
      · rw [if_pos hr, if_pos hr]
      · rw [if_neg hr, if_neg hr]
        congr 1
        refine List.map_congr_left fun w hw => ?_
        rw [ih (enough_for_element hd hr hw) w]
    | _ => simp only [displayIn]

theorem displayUnder_array (h : Heap) (path : List ArrayRef) (r : ArrayRef) :
    displayUnder h path (array r) =
      if r ∈ path then ""
      else ",".intercalate <| (h.items r).toList.map fun v =>
        if v.isNullish then "" else displayUnder h (r :: path) v := by
  have all := h.unopened_arrayRefs_le path
  rw [displayUnder, displayIn_array]
  by_cases hr : r ∈ path
  · rw [if_pos hr, if_pos hr]
  · rw [if_neg hr, if_neg hr]
    congr 1
    refine List.map_congr_left fun w hw => ?_
    rw [displayUnder, displayIn_succ (enough_for_element (by omega) hr hw)]

theorem displayUnder_plain (hv : v.kind ≠ .array) (path : List ArrayRef) :
    displayUnder h path v = display h v := by
  cases v with
  | array r => exact absurd rfl hv
  | _ => simp only [displayUnder, display, displayIn]

theorem convert_run (hd : unopened h.arrayRefs path < depth) (v : Value) :
    (convert h depth v).run path = some (displayUnder h path v, path) := by
  induction depth generalizing path v with
  | zero => exact absurd hd (Nat.not_lt_zero _)
  | succ depth ih =>
    cases v with
    | array r =>
      rw [displayUnder_array]
      by_cases hr : r ∈ path
      · simp [convert, hr]
      · have elements := mapM_run_kept (s := r :: path) (l := (h.items r).toList)
          (f := fun v => if v.isNullish then pure "" else convert h depth v)
          (g := fun v => if v.isNullish then "" else displayUnder h (r :: path) v) fun w hw => by
            cases hn : w.isNullish with
            | true => simp
            | false => simpa [hn] using ih (enough_for_element hd hr hw) w
        simp [convert, hr, elements]
    | _ => rw [displayUnder_plain (by simp [kind])]; rfl

def Reaches (h : Heap) : Value → ArrayRef → Prop
  | array r, q => Relation.ReflTransGen h.Nests r q
  | _, _ => False

theorem Reaches.of_element {q : ArrayRef} (hv : v ∈ (h.items r).toList) (hq : v.Reaches h q) :
    Relation.TransGen h.Nests r q := by
  cases v with
  | array d => exact .head' (Array.mem_toList_iff.1 hv) hq
  | _ => exact hq.elim

theorem displayIn_congr {path' : List ArrayRef}
    (hp : ∀ q, v.Reaches h q → (q ∈ path ↔ q ∈ path')) :
    displayIn h depth path v = displayIn h depth path' v := by
  induction depth generalizing path path' v with
  | zero => cases v <;> simp only [displayIn]
  | succ depth ih =>
    cases v with
    | array r =>
      have open_ : r ∈ path ↔ r ∈ path' := hp r .refl
      have elements : ∀ w ∈ (h.items r).toList,
          displayIn h depth (r :: path) w = displayIn h depth (r :: path') w := by
        intro w hw
        refine ih fun q hq => ?_
        have reached : (array r).Reaches h q := (hq.of_element hw).to_reflTransGen
        simp [hp q reached]
      rw [displayIn_array, displayIn_array, if_congr open_ rfl rfl]
      congr 2
      exact List.map_congr_left fun w hw => by rw [elements w hw]
    | _ => simp only [displayIn]

theorem displayUnder_of_apart (hp : ∀ q ∈ path, ¬ v.Reaches h q) :
    displayUnder h path v = display h v :=
  displayIn_congr fun q hq => iff_of_false (fun open_ => hp q open_ hq) List.not_mem_nil

theorem conversion_ends (h : Heap) :
    (∀ depth > h.arrays.size, ∀ path v,
      (convert h depth v).run path = some (displayUnder h path v, path)) ∧
    (∀ v, displayUnder h [] v = display h v) ∧
    (∀ path r, displayUnder h path (array r) =
      if r ∈ path then ""
      else ",".intercalate <| (h.items r).toList.map fun v =>
        if v.isNullish then "" else displayUnder h (r :: path) v) ∧
    (∀ path v, v.kind ≠ .array → displayUnder h path v = display h v) ∧
    ∀ path v, (∀ q ∈ path, ¬ v.Reaches h q) → displayUnder h path v = display h v := by
  refine ⟨fun depth hd path v => convert_run ?_ v, displayUnder_nil h, displayUnder_array h,
    fun path v hv => displayUnder_plain hv path, fun path v => displayUnder_of_apart⟩
  exact Nat.lt_of_le_of_lt (h.unopened_arrayRefs_le path) hd

example : display ⟨#[#[.text "a", .array ⟨0⟩]], #[]⟩ (.array ⟨0⟩) = "a," := by decide

end Value

end CanvasScript
