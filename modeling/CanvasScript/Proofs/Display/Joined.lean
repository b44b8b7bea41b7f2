import CanvasScript.Proofs.Display
import CanvasScript.Value.Methods

namespace CanvasScript.Value

variable {h : Heap} {path path' : List ArrayRef} {depth : Nat} {v : Value} {p q r : ArrayRef}

theorem length_commas (texts : List String) :
    (",".intercalate texts).length = (texts.map String.length).sum + (texts.length - 1) := by
  have comma : ",".length = 1 := rfl
  induction texts with
  | nil => simp
  | cons t texts ih =>
    cases texts with
    | nil => simp
    | cons u texts =>
      rw [String.intercalate_cons_cons, String.length_append, String.length_append, ih, comma]
      simp only [List.map_cons, List.sum_cons, List.length_cons]
      omega

def elementUnder (h : Heap) (path : List ArrayRef) (v : Value) : String :=
  if v.isNullish then "" else displayUnder h path v

theorem elementUnder_array (h : Heap) (path : List ArrayRef) (r : ArrayRef) :
    elementUnder h path (array r) = displayUnder h path (array r) := rfl

theorem displayIn_open (hr : r ∈ path) (depth : Nat) : displayIn h depth path (array r) = "" := by
  cases depth with
  | zero => simp only [displayIn]
  | succ depth => rw [displayIn_array, if_pos hr]

theorem displayUnder_open (hr : r ∈ path) : displayUnder h path (array r) = "" :=
  displayIn_open hr _

theorem displayUnder_closed (hr : r ∉ path) : displayUnder h path (array r) =
    ",".intercalate ((h.items r).toList.map (elementUnder h (r :: path))) := by
  rw [displayUnder_array, if_neg hr]
  rfl

theorem displayIn_swap (v : Value) :
    displayIn h depth (p :: q :: path) v = displayIn h depth (q :: p :: path) v :=
  displayIn_congr fun r _ => by simp only [List.mem_cons]; tauto

theorem elementUnder_swap (v : Value) :
    elementUnder h (p :: q :: path) v = elementUnder h (q :: p :: path) v := by
  rw [elementUnder, elementUnder, displayUnder, displayUnder, displayIn_swap]

section Shorter

theorem length_displayIn_le (hp : path ⊆ path') (v : Value) :
    (displayIn h depth path' v).length ≤ (displayIn h depth path v).length := by
  induction depth generalizing path path' v with
  | zero => cases v <;> simp only [displayIn, le_refl]
  | succ depth ih =>
    cases v with
    | array r =>
      rw [displayIn_array, displayIn_array]
      by_cases hr : r ∈ path'
      · simp [hr]
      · rw [if_neg hr, if_neg fun hr' => hr (hp hr'), length_commas, length_commas]
        simp only [List.length_map, List.map_map]
        refine Nat.add_le_add_right (List.sum_le_sum fun w _ => ?_) _
        have element := ih (List.cons_subset_cons r hp) w
        simp only [Function.comp_apply]
        split
        · exact le_refl _
        · exact element
    | _ => simp only [displayIn, le_refl]

theorem length_elementUnder_le (hp : path ⊆ path') (v : Value) :
    (elementUnder h path' v).length ≤ (elementUnder h path v).length := by
  rw [elementUnder, elementUnder]
  split
  · exact le_refl _
  · exact length_displayIn_le hp v

theorem length_joined_lt {items : List Value} (hp : path ⊆ path') (hv : v ∈ items)
    (shorter : (elementUnder h path' v).length < (elementUnder h path v).length) :
    (",".intercalate (items.map (elementUnder h path'))).length <
      (",".intercalate (items.map (elementUnder h path))).length := by
  rw [length_commas, length_commas]
  simp only [List.length_map, List.map_map]
  refine Nat.add_lt_add_right (List.sum_lt_sum _ _ (fun w _ => ?_) ⟨v, hv, shorter⟩) _
  exact length_elementUnder_le hp w

theorem length_displayUnder_lt (several : 2 ≤ (h.items q).size)
    (route : Route h.Nests path r q) :
    (displayUnder h (q :: path) (array r)).length < (displayUnder h path (array r)).length := by
  induction hn : unopened h.arrayRefs path using Nat.strong_induction_on
    generalizing path r with
  | _ n ih =>
    have start : r ∉ path := by cases route <;> assumption
    by_cases same : r = q
    · subst same
      rw [displayUnder_open List.mem_cons_self, displayUnder_closed start, length_commas]
      simp
      omega
    · obtain ⟨d, edge, rest⟩ : ∃ d, h.Nests r d ∧ Route h.Nests (r :: path) d q := by
        refine (route.leave same).resolve_left fun again => ?_
        cases again with
        | here closed => exact closed List.mem_cons_self
        | step closed => exact closed List.mem_cons_self
      have element : array d ∈ (h.items r).toList := Array.mem_toList_iff.2 edge
      have fewer := unopened_cons_lt (Heap.mem_arrayRefs element) start
      have shorter := ih _ (hn ▸ fewer) rest rfl
      have closed : r ∉ q :: path := by simp [same, start]
      rw [displayUnder_closed closed, displayUnder_closed start,
        List.map_congr_left fun w _ => elementUnder_swap w]
      exact length_joined_lt (List.subset_cons_self q _) element shorter

end Shorter

section Single

variable (one : (h.items q).toList = [array p])
include one

theorem displayIn_of_single (hp : p ∈ path) (depth : Nat) (v : Value) :
    displayIn h depth (q :: path) v = displayIn h depth path v := by
  induction depth generalizing path v with
  | zero => cases v <;> simp only [displayIn]
  | succ depth ih =>
    cases v with
    | array r =>
      by_cases hr : r ∈ path
      · rw [displayIn_open hr, displayIn_open (List.mem_cons_of_mem q hr)]
      · by_cases same : r = q
        · subst same
          have element : displayIn h depth (r :: path) (array p) = "" :=
            displayIn_open (List.mem_cons_of_mem r hp) depth
          simp [displayIn_array, hr, one, isNullish, element]
        · have closed : r ∉ q :: path := by simp [same, hr]
          rw [displayIn_array, displayIn_array, if_neg closed, if_neg hr]
          congr 1
          refine List.map_congr_left fun w _ => ?_
          rw [displayIn_swap, ih (List.mem_cons_of_mem r hp)]
    | _ => simp only [displayIn]

theorem displayUnder_element_of_single :
    displayUnder h [q] (array p) = displayUnder h [] (array p) := by
  by_cases same : p = q
  · subst same
    have open_ : displayUnder h [p] (array p) = "" := displayUnder_open List.mem_cons_self
    rw [displayUnder_closed List.not_mem_nil, one, List.map_singleton, String.intercalate_singleton,
      elementUnder_array]
  · rw [displayUnder_closed (by simpa using same), displayUnder_closed List.not_mem_nil]
    congr 1
    refine List.map_congr_left fun w _ => ?_
    rw [elementUnder_swap, elementUnder, elementUnder, displayUnder, displayUnder,
      displayIn_of_single one List.mem_cons_self]

end Single

end CanvasScript.Value

namespace CanvasScript.Method

open Value (arg display elementUnder displayUnder)

variable {h : Heap} {r : ArrayRef}

theorem display_eq (h : Heap) (r : ArrayRef) : display h (.array r) =
    ",".intercalate ((h.items r).toList.map (elementUnder h [r])) := by
  rw [← Value.displayUnder_nil, Value.displayUnder_closed List.not_mem_nil]

theorem joined_eq (h : Heap) (items : List Value) :
    joined h "," items = ",".intercalate (items.map (elementUnder h [])) := rfl

theorem separator_of_default {args : List Value}
    (ha : arg args 0 = .undefined ∨ arg args 0 = .text ",") : separator h (arg args 0) = "," := by
  rcases ha with ha | ha <;> rw [ha] <;> rfl

theorem joined_eq_display_of_apart (apart : ¬ Relation.TransGen h.Nests r r) :
    joined h "," (h.items r).toList = display h (.array r) := by
  rw [joined_eq, display_eq]
  congr 1
  refine List.map_congr_left fun v hv => ?_
  have whole : displayUnder h [r] v = display h v := by
    refine Value.displayUnder_of_apart fun q hq reached => apart ?_
    obtain rfl := List.mem_singleton.1 hq
    exact reached.of_element hv
  rw [elementUnder, elementUnder, whole, Value.displayUnder_nil]

theorem joined_eq_display_of_single {v : Value} (one : (h.items r).toList = [v]) :
    joined h "," (h.items r).toList = display h (.array r) := by
  have element : elementUnder h [] v = elementUnder h [r] v := by
    cases v with
    | array p => exact (Value.displayUnder_element_of_single one).symm
    | _ => rfl
  rw [joined_eq, display_eq, one, List.map_singleton, List.map_singleton, element]

theorem length_display_lt (round : Relation.TransGen h.Nests r r)
    (several : 2 ≤ (h.items r).size) :
    (display h (.array r)).length < (joined h "," (h.items r).toList).length := by
  obtain ⟨d, edge, back⟩ := Relation.TransGen.head'_iff.1 round
  have element : .array d ∈ (h.items r).toList := Array.mem_toList_iff.2 edge
  have shorter := Value.length_displayUnder_lt several (Route.ofReflTransGen back)
  rw [joined_eq, display_eq]
  exact Value.length_joined_lt (List.nil_subset _) element shorter

theorem join_eq_display_iff (h : Heap) (r : ArrayRef) (args : List Value)
    (ha : arg args 0 = .undefined ∨ arg args 0 = .text ",") :
    (callArray h r args .join).1 = .text (display h (.array r)) ↔
      ¬ Relation.TransGen h.Nests r r ∨ (h.items r).size = 1 := by
  have call : (callArray h r args .join).1 = .text (joined h "," (h.items r).toList) := by
    rw [callArray, separator_of_default ha]
  rw [call, Value.text.injEq]
  constructor
  · intro same
    by_contra other
    rw [not_or, not_not] at other
    obtain ⟨round, count⟩ := other
    have filled : 0 < (h.items r).size := by
      obtain ⟨d, edge, -⟩ := Relation.TransGen.head'_iff.1 round
      exact Array.size_pos_of_mem edge
    have shorter := length_display_lt round (by omega)
    exact absurd (congrArg String.length same) (Nat.ne_of_gt shorter)
  · rintro (apart | single)
    · exact joined_eq_display_of_apart apart
    · obtain ⟨v, one⟩ := List.length_eq_one_iff.1 (Array.length_toList.trans single)
      exact joined_eq_display_of_single one

def ring : Heap := ⟨#[#[.array ⟨1⟩], #[.array ⟨0⟩, .text "a"]], #[]⟩

theorem ring_joined : arg [] 0 = .undefined ∧ Relation.TransGen ring.Nests ⟨0⟩ ⟨0⟩ ∧
    (callArray ring ⟨0⟩ [] .join).1 = .text (display ring (.array ⟨0⟩)) := by
  have out : ring.Nests ⟨0⟩ ⟨1⟩ := by simp [Heap.Nests, Heap.items, ring]
  have back : ring.Nests ⟨1⟩ ⟨0⟩ := by simp [Heap.Nests, Heap.items, ring]
  exact ⟨rfl, .tail (.single out) back,
    (join_eq_display_iff ring ⟨0⟩ [] (.inl rfl)).2 (.inr rfl)⟩

def knot : Heap := ⟨#[#[.text "a", .array ⟨0⟩]], #[]⟩

theorem knot_joined_twice :
    ¬ ∀ (h : Heap) (r : ArrayRef) (args : List Value),
      arg args 0 = .undefined ∨ arg args 0 = .text "," →
      (callArray h r args .join).1 = .text (display h (.array r)) := by
  intro always
  have same := always knot ⟨0⟩ [] (.inl rfl)
  have texts : joined knot "," (knot.items ⟨0⟩).toList ≠ display knot (.array ⟨0⟩) := by decide
  exact texts (Value.text.inj same)

end CanvasScript.Method
