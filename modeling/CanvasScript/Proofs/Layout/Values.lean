import CanvasScript.Console
import CanvasScript.Evaluator
import CanvasScript.Proofs.Layout.Moved

namespace CanvasScript

structure Renaming where
  unit : Nat → Nat
  place : Nat → Position → Position
  unit_injective : Function.Injective unit
  place_injective : ∀ u, Function.Injective (place u)

variable (ρ : Renaming)

def Function.moved (f : Function) : Function :=
  ⟨ρ.unit f.unit, f.decl.moved (ρ.place f.unit)⟩

def Value.moved : Value → Value
  | .function f => .function (f.moved ρ)
  | v => v

def Heap.moved (h : Heap) : Heap :=
  ⟨h.arrays.map (Array.map (Value.moved ρ)), h.objects.map (Fields.map (Value.moved ρ))⟩

theorem Function.same_moved (f g : Function) : (f.moved ρ).same (g.moved ρ) = f.same g := by
  obtain ⟨unit, decl⟩ := f
  obtain ⟨unit', decl'⟩ := g
  simp only [same, moved, FunctionDecl.moved, ρ.unit_injective.eq_iff]
  by_cases h : unit = unit'
  · subst h
    simp only [(ρ.place_injective unit).eq_iff]
  · simp only [h, decide_false, Bool.false_and]

namespace Value

theorem moved_array (r : ArrayRef) : (array r).moved ρ = array r := rfl

theorem moved_object (r : ObjectRef) : (object r).moved ρ = object r := rfl

theorem moved_text (s : String) : (text s).moved ρ = text s := rfl

theorem kind_moved (v : Value) : (v.moved ρ).kind = v.kind := by cases v <;> rfl

theorem isNullish_moved (v : Value) : (v.moved ρ).isNullish = v.isNullish := by cases v <;> rfl

theorem isCallable_moved (v : Value) : (v.moved ρ).isCallable = v.isCallable := by
  cases v <;> rfl

theorem truthy_moved (v : Value) : (v.moved ρ).truthy = v.truthy := by cases v <;> rfl

theorem isReference_moved (v : Value) : (v.moved ρ).isReference = v.isReference := by
  cases v <;> rfl

theorem elementIndex?_moved (v : Value) : (v.moved ρ).elementIndex? = v.elementIndex? := by
  cases v <;> rfl

theorem strictEq_moved (a b : Value) : (a.moved ρ).strictEq (b.moved ρ) = a.strictEq b := by
  cases a <;> cases b <;> first | rfl | exact Function.same_moved ρ _ _

theorem sameValueZero_moved (a b : Value) :
    (a.moved ρ).sameValueZero (b.moved ρ) = a.sameValueZero b := by
  cases a <;> cases b <;> first | rfl | exact Function.same_moved ρ _ _

theorem sameReference?_moved (a b : Value) :
    (a.moved ρ).sameReference? (b.moved ρ) = a.sameReference? b := by
  cases a <;> cases b <;> first | rfl | exact congrArg some (Function.same_moved ρ _ _)

theorem getD_moved (o : Option Value) :
    (o.map (Value.moved ρ)).getD .undefined = (o.getD .undefined).moved ρ := by
  cases o <;> rfl

theorem arg_moved (args : List Value) (i : Nat) :
    arg (args.map (Value.moved ρ)) i = (arg args i).moved ρ := by
  rw [arg, List.getD_eq_getElem?_getD, List.getElem?_map, getD_moved, arg,
    List.getD_eq_getElem?_getD]

end Value

section Containers

variable (h : Heap)

namespace Heap

theorem size_arrays_moved : (h.moved ρ).arrays.size = h.arrays.size := Array.size_map

theorem size_moved : (h.moved ρ).size = h.size := by
  rw [size, size, size_arrays_moved, moved, Array.size_map]

theorem items_moved (r : ArrayRef) : (h.moved ρ).items r = (h.items r).map (Value.moved ρ) := by
  simp only [items, moved, Array.getD_eq_getD_getElem?, Array.getElem?_map]
  cases h.arrays[r.index]? with
  | none => exact Array.map_empty.symm
  | some xs => rfl

theorem fields_moved (r : ObjectRef) : (h.moved ρ).fields r = (h.fields r).map (Value.moved ρ) := by
  simp only [fields, moved, Array.getD_eq_getD_getElem?, Array.getElem?_map]
  cases h.objects[r.index]? <;> rfl

theorem newArray_moved (xs : Array Value) :
    (h.moved ρ).newArray (xs.map (Value.moved ρ)) =
      ((h.newArray xs).1, (h.newArray xs).2.moved ρ) := by
  simp only [newArray, moved, Array.size_map, Array.map_push]

theorem newObject_moved (f : Fields Value) :
    (h.moved ρ).newObject (f.map (Value.moved ρ)) =
      ((h.newObject f).1, (h.newObject f).2.moved ρ) := by
  simp only [newObject, moved, Array.size_map, Array.map_push]

theorem modifyArray_moved (r : ArrayRef) {f g : Array Value → Array Value}
    (hf : ∀ xs, g (xs.map (Value.moved ρ)) = (f xs).map (Value.moved ρ)) :
    (h.moved ρ).modifyArray r g = (h.modifyArray r f).moved ρ := by
  simp only [modifyArray, moved, Heap.mk.injEq, and_true]
  apply Array.ext
  · simp
  · intro i hi hi'
    simp only [Array.getElem_modify, Array.getElem_map]
    split
    · exact hf _
    · rfl

theorem setField_moved (r : ObjectRef) (key : String) (v : Value) :
    (h.moved ρ).setField r key (v.moved ρ) = (h.setField r key v).moved ρ := by
  simp only [setField, moved, Heap.mk.injEq, true_and]
  apply Array.ext
  · simp
  · intro i hi hi'
    simp only [Array.getElem_modify, Array.getElem_map]
    split
    · exact Fields.set_map _ _ key v
    · rfl

end Heap

namespace Value

theorem displayIn_moved (depth : Nat) (path : List ArrayRef) (v : Value) :
    displayIn (h.moved ρ) depth path (v.moved ρ) = displayIn h depth path v := by
  induction depth generalizing path v with
  | zero => cases v <;> rfl
  | succ depth ih =>
    cases v with
    | array r =>
      simp only [moved_array, displayIn, Heap.items_moved, Array.toList_map, List.map_map]
      split
      · rfl
      · refine congrArg (",".intercalate ·) (List.map_congr_left fun v _ => ?_)
        simp only [Function.comp_apply, isNullish_moved, ih]
    | _ => rfl

theorem display_moved (v : Value) : (v.moved ρ).display (h.moved ρ) = v.display h := by
  rw [display, display, Heap.size_arrays_moved, displayIn_moved]

theorem toNumber_moved (v : Value) : (v.moved ρ).toNumber (h.moved ρ) = v.toNumber h := by
  cases v with
  | array r => exact congrArg Number.ofText (display_moved ρ h (.array r))
  | _ => rfl

theorem display_fixed {v : Value} (hv : v.moved ρ = v) : v.display (h.moved ρ) = v.display h := by
  rw [← hv, display_moved, hv]

theorem toNumber_fixed {v : Value} (hv : v.moved ρ = v) :
    v.toNumber (h.moved ρ) = v.toNumber h := by
  rw [← hv, toNumber_moved, hv]

theorem moved_toPrimitive (v : Value) : (v.toPrimitive h).moved ρ = v.toPrimitive h := by
  cases v <;> rfl

theorem toPrimitive_moved (v : Value) :
    (v.moved ρ).toPrimitive (h.moved ρ) = v.toPrimitive h := by
  rw [toPrimitive, isReference_moved, display_moved, toPrimitive]
  cases v <;> rfl

theorem comparable_moved (v : Value) : (v.moved ρ).comparable (h.moved ρ) = v.comparable h := by
  cases v with
  | array r => exact congrArg Comparable.text (display_moved ρ h (.array r))
  | _ => rfl

theorem looseEq_moved (a b : Value) :
    looseEq (h.moved ρ) (a.moved ρ) (b.moved ρ) = looseEq h a b := by
  simp only [looseEq, isNullish_moved, sameReference?_moved, comparable_moved]

theorem compare_moved (a b : Value) :
    compare (h.moved ρ) (a.moved ρ) (b.moved ρ) = compare h a b := by
  have left := moved_toPrimitive ρ h a
  have right := moved_toPrimitive ρ h b
  simp only [compare, toPrimitive_moved]
  generalize a.toPrimitive h = x at left ⊢
  generalize b.toPrimitive h = y at right ⊢
  split
  · rfl
  · rw [toNumber_fixed ρ h left, toNumber_fixed ρ h right]

theorem add_moved (a b : Value) :
    add (h.moved ρ) (a.moved ρ) (b.moved ρ) = (add h a b).moved ρ := by
  have left := moved_toPrimitive ρ h a
  have right := moved_toPrimitive ρ h b
  simp only [add, toPrimitive_moved]
  generalize a.toPrimitive h = x at left ⊢
  generalize b.toPrimitive h = y at right ⊢
  split
  · rw [display_fixed ρ h right]
    rfl
  · rw [display_fixed ρ h left]
    rfl
  · rw [toNumber_fixed ρ h left, toNumber_fixed ρ h right]
    rfl

theorem arith_moved (op : ArithOp) (a b : Value) :
    arith (h.moved ρ) op (a.moved ρ) (b.moved ρ) = (arith h op a b).moved ρ := by
  cases op with
  | add => exact add_moved ρ h a b
  | _ =>
    simp only [arith, toNumber_moved]
    rfl

theorem unary_moved (op : UnaryOp) (v : Value) :
    unary (h.moved ρ) op (v.moved ρ) = (unary h op v).moved ρ := by
  cases op <;> simp only [unary, toNumber_moved, truthy_moved] <;> rfl

theorem binary_moved (op : BinaryOp) (a b : Value) :
    binary (h.moved ρ) op (a.moved ρ) (b.moved ρ) = (binary h op a b).moved ρ := by
  cases op with
  | arith op => exact arith_moved ρ h op a b
  | and =>
    simp only [binary, truthy_moved]
    split <;> rfl
  | or =>
    simp only [binary, truthy_moved]
    split <;> rfl
  | _ =>
    simp only [binary, looseEq_moved, compare_moved]
    rfl

theorem intrinsic?_moved (v : Value) (name : String) :
    (v.moved ρ).intrinsic? (h.moved ρ) name = (v.intrinsic? h name).map (Value.moved ρ) := by
  cases v with
  | array r =>
    simp only [moved_array, intrinsic?, Heap.items_moved, Array.size_map]
    split
    · rfl
    · cases ArrayMethod.ofName? name <;> rfl
  | text s =>
    simp only [moved_text, intrinsic?]
    split
    · rfl
    · cases TextMethod.ofName? name <;> rfl
  | _ => rfl

end Value

end Containers

namespace Place

def moved : Place → Place
  | .variable name => .variable name
  | .member owner property => .member (owner.moved ρ) property
  | .index owner i => .index (owner.moved ρ) (i.moved ρ)

def Edit.moved : Edit → Edit
  | .nothing => .nothing
  | .field r key v => .field r key (v.moved ρ)
  | .element r i v => .element r i (v.moved ρ)
  | .length r n => .length r n

variable (h : Heap)

theorem readMember_moved (owner : Value) (property : String) :
    readMember (h.moved ρ) (owner.moved ρ) property =
      (readMember h owner property).map (Value.moved ρ) := by
  simp only [readMember, Value.isNullish_moved, Value.kind_moved]
  split
  · rfl
  · cases owner with
    | object r =>
      simp only [Value.moved_object, Heap.fields_moved, Fields.get?_map, Value.getD_moved]
      rfl
    | _ =>
      refine congrArg Except.ok ?_
      rw [Value.intrinsic?_moved, Value.getD_moved]

theorem readIndex_moved (owner i : Value) :
    readIndex (h.moved ρ) (owner.moved ρ) (i.moved ρ) =
      (readIndex h owner i).map (Value.moved ρ) := by
  have member := readMember_moved ρ h owner (i.display h)
  simp only [readIndex, Value.isNullish_moved, Value.kind_moved, Value.display_moved,
    Value.elementIndex?_moved, member]
  split
  · rfl
  · cases owner with
    | array r =>
      cases i.elementIndex? with
      | none => rfl
      | some k =>
        simp only [Value.moved_array, Heap.items_moved, Array.getElem?_map, Value.getD_moved]
        rfl
    | text s =>
      cases i.elementIndex? with
      | none => rfl
      | some k =>
        simp only [Value.moved_text, charAt]
        split <;> rfl
    | _ => rfl

theorem resized_moved (items : Array Value) (n : Nat) :
    resized (items.map (Value.moved ρ)) n = (resized items n).map (Value.moved ρ) := by
  simp only [resized, Array.size_map]
  split
  · exact Array.map_extract.symm
  · rw [Array.map_append, Array.map_replicate]
    rfl

theorem withElement_moved (items : Array Value) (i : Nat) (v : Value) :
    withElement (items.map (Value.moved ρ)) i (v.moved ρ) =
      (withElement items i v).map (Value.moved ρ) := by
  simp only [withElement, Array.size_map, resized_moved, Array.map_setIfInBounds]
  split <;> rfl

theorem Edit.apply_moved (e : Edit) : (e.moved ρ).apply (h.moved ρ) = (e.apply h).moved ρ := by
  cases e with
  | nothing => rfl
  | field r key v => exact Heap.setField_moved ρ h r key v
  | element r i v => exact Heap.modifyArray_moved ρ h r fun xs => withElement_moved ρ xs i v
  | length r n => exact Heap.modifyArray_moved ρ h r fun xs => resized_moved ρ xs n

theorem setElement_moved (r : ArrayRef) (i : Nat) (v : Value) :
    setElement r i (v.moved ρ) = (setElement r i v).map (Edit.moved ρ) := by
  simp only [setElement]
  split <;> rfl

theorem setLength_moved (r : ArrayRef) (v : Value) :
    setLength (h.moved ρ) r (v.moved ρ) = (setLength h r v).map (Edit.moved ρ) := by
  simp only [setLength, Value.toNumber_moved, Value.display_moved]
  split <;> rfl

theorem setMember_moved (owner : Value) (key : String) (v : Value) :
    setMember (h.moved ρ) (owner.moved ρ) key (v.moved ρ) =
      (setMember h owner key v).map (Edit.moved ρ) := by
  simp only [setMember, Value.isNullish_moved, Value.kind_moved]
  split
  · rfl
  · cases owner with
    | array r =>
      simp only [Value.moved]
      split
      · exact setLength_moved ρ h r v
      · split
        · exact setElement_moved ρ r _ v
        · rfl
    | _ => rfl

theorem setIndex_moved (owner i v : Value) :
    setIndex (h.moved ρ) (owner.moved ρ) (i.moved ρ) (v.moved ρ) =
      (setIndex h owner i v).map (Edit.moved ρ) := by
  have member := setMember_moved ρ h owner (i.display h) v
  simp only [setIndex, Value.elementIndex?_moved, Value.display_moved, member]
  cases owner with
  | array r =>
    cases i.elementIndex? with
    | none => rfl
    | some k => exact setElement_moved ρ r k v
  | _ => rfl

end Place

namespace Method

open Value (arg arg_moved)

variable (h : Heap)

theorem relativeIndex_moved (v : Value) (length default : Nat) :
    relativeIndex (h.moved ρ) (v.moved ρ) length default = relativeIndex h v length default := by
  have number := Value.toNumber_moved ρ h v
  cases v with
  | undefined => rfl
  | _ => simp only [relativeIndex, Value.moved] at number ⊢; rw [number]

theorem cut_moved {α : Type} (xs : List α) (args : List Value) :
    cut (h.moved ρ) xs (args.map (Value.moved ρ)) = cut h xs args := by
  simp only [cut, arg_moved, relativeIndex_moved]

theorem cut_map {α β : Type} (f : α → β) (xs : List α) (args : List Value) :
    cut h (xs.map f) args = (cut h xs args).map f := by
  simp only [cut, List.length_map, List.map_drop, List.map_take]

theorem position_map {α β : Type} (f : α → β) (p : β → Bool) (xs : List α) :
    position p (xs.map f) = position (fun x => p (f x)) xs := by
  rw [position, position, List.findIdx?_map]
  rfl

theorem moved_position {α : Type} (p : α → Bool) (xs : List α) :
    (position p xs).moved ρ = position p xs := by
  rw [position]
  split <;> rfl

theorem joined_moved (separator : String) (items : List Value) :
    joined (h.moved ρ) separator (items.map (Value.moved ρ)) = joined h separator items := by
  simp only [joined, List.map_map, Function.comp_def, Value.isNullish_moved, Value.display_moved]

theorem separator_moved (v : Value) : separator (h.moved ρ) (v.moved ρ) = separator h v := by
  have text := Value.display_moved ρ h v
  cases v <;> first | rfl | exact text

theorem pieces_moved (s : String) (v : Value) :
    pieces (h.moved ρ) s (v.moved ρ) = pieces h s v := by
  have text := Value.display_moved ρ h v
  cases v with
  | undefined => rfl
  | _ => simp only [pieces, Value.moved] at text ⊢; rw [text]

theorem foldl_push_moved (args : List Value) (items : Array Value) :
    (args.map (Value.moved ρ)).foldl Array.push (items.map (Value.moved ρ)) =
      (args.foldl Array.push items).map (Value.moved ρ) := by
  induction args generalizing items with
  | nil => rfl
  | cons a args ih => rw [List.map_cons, List.foldl_cons, ← Array.map_push, ih, List.foldl_cons]

def movedResult (r : Value × Heap) : Value × Heap := (r.1.moved ρ, r.2.moved ρ)

theorem callArray_moved (r : ArrayRef) (args : List Value) (m : ArrayMethod) :
    callArray (h.moved ρ) r (args.map (Value.moved ρ)) m =
      movedResult ρ (callArray h r args m) := by
  cases m with
  | push =>
    have heap := Heap.modifyArray_moved ρ h r (f := fun xs => args.foldl Array.push xs)
      (g := fun xs => (args.map (Value.moved ρ)).foldl Array.push xs) (foldl_push_moved ρ args)
    simp only [callArray, heap, Heap.items_moved, Array.size_map]
    rfl
  | pop =>
    have heap := Heap.modifyArray_moved ρ h r (f := Array.pop) fun xs => Array.map_pop.symm
    simp only [callArray, heap, Heap.items_moved, Array.back?_map, Value.getD_moved]
    rfl
  | shift =>
    have heap := Heap.modifyArray_moved ρ h r (f := fun xs => xs.extract 1 xs.size)
      (g := fun xs => xs.extract 1 xs.size) fun xs => by rw [Array.map_extract, Array.size_map]
    simp only [callArray, heap, Heap.items_moved, Array.getElem?_map, Value.getD_moved]
    rfl
  | join =>
    simp only [callArray, Heap.items_moved, Array.toList_map, arg_moved, separator_moved,
      joined_moved]
    rfl
  | indexOf =>
    simp only [callArray, Heap.items_moved, Array.toList_map, arg_moved, position_map,
      Value.strictEq_moved, movedResult, moved_position]
  | includes =>
    simp only [callArray, Heap.items_moved, Array.any_map, Function.comp_def, arg_moved,
      Value.sameValueZero_moved]
    rfl
  | slice =>
    have fresh := Heap.newArray_moved ρ h (cut h (h.items r).toList args).toArray
    rw [List.map_toArray] at fresh
    simp only [callArray, Heap.items_moved, Array.toList_map, cut_moved, cut_map, fresh]
    rfl
  | reverse =>
    have heap := Heap.modifyArray_moved ρ h r (f := Array.reverse) fun xs => Array.map_reverse.symm
    simp only [callArray, heap]
    rfl

theorem callText_moved (s : String) (args : List Value) (m : TextMethod) :
    callText (h.moved ρ) s (args.map (Value.moved ρ)) m = movedResult ρ (callText h s args m) := by
  cases m with
  | split =>
    have texts (ps : List String) :
        (ps.map Value.text).map (Value.moved ρ) = ps.map Value.text := by
      rw [List.map_map]
      rfl
    have fresh := Heap.newArray_moved ρ h ((pieces h s (arg args 0)).map Value.text).toArray
    rw [List.map_toArray, texts] at fresh
    simp only [callText, arg_moved, pieces_moved, fresh]
    rfl
  | indexOf =>
    simp only [callText, arg_moved, Value.display_moved]
    split <;> rfl
  | _ =>
    simp only [callText, arg_moved, Value.display_moved, cut_moved]
    rfl

theorem Bound.call_moved (args : List Value) (b : Bound) :
    b.call (h.moved ρ) (args.map (Value.moved ρ)) = movedResult ρ (b.call h args) := by
  cases b with
  | array r m => exact callArray_moved ρ h r args m
  | text s m => exact callText_moved ρ h s args m

end Method

namespace Console

variable (h : Heap)

theorem toJson_moved (depth : Nat) (path : List Container) (v : Value) :
    toJson (h.moved ρ) depth path (v.moved ρ) = toJson h depth path v := by
  induction depth generalizing path v with
  | zero => cases v <;> rfl
  | succ depth ih =>
    cases v with
    | array r =>
      simp only [Value.moved_array, toJson, Heap.items_moved, Array.toList_map, List.mapM_map,
        Function.comp_def, ih]
    | object r =>
      simp only [Value.moved_object, toJson, Heap.fields_moved, Fields.map, List.mapM_map,
        Function.comp_def, ih]
    | _ => rfl

theorem formatArg_moved (v : Value) : formatArg (h.moved ρ) (v.moved ρ) = formatArg h v := by
  have json := toJson_moved ρ h (h.size + 1) [] v
  have shown := Value.display_moved ρ h v
  cases v with
  | array r =>
    rw [Value.moved_array] at json ⊢
    simp only [formatArg, Heap.size_moved, json]
  | object r =>
    rw [Value.moved_object] at json ⊢
    simp only [formatArg, Heap.size_moved, json]
  | null => rfl
  | undefined => rfl
  | _ => exact shown

theorem formatArgs_moved (args : List Value) :
    formatArgs (h.moved ρ) (args.map (Value.moved ρ)) = formatArgs h args := by
  simp only [formatArgs, List.map_map, Function.comp_def, formatArg_moved]

end Console

end CanvasScript
