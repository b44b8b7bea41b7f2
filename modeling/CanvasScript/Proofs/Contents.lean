import CanvasScript.Bindings
import CanvasScript.Evaluator

namespace CanvasScript

structure Value.OnlyFunctions (V : Value → Prop) : Prop where
  data : ∀ v, v.isCallable = false → V v
  method : ∀ v m, V (.method v m)

namespace Value.OnlyFunctions

variable {V : Value → Prop} (hV : OnlyFunctions V)
include hV

theorem arith (h : Heap) (op : ArithOp) (a b : Value) : V (Value.arith h op a b) := by
  cases op with
  | add =>
    simp only [Value.arith, Value.add]
    split <;> exact hV.data _ rfl
  | sub => exact hV.data _ rfl
  | mul => exact hV.data _ rfl
  | div => exact hV.data _ rfl

theorem unary (h : Heap) (op : UnaryOp) (v : Value) : V (Value.unary h op v) := by
  cases op <;> exact hV.data _ rfl

theorem binary (h : Heap) (op : BinaryOp) {a b : Value} (ha : V a) (hb : V b) :
    V (Value.binary h op a b) := by
  cases op with
  | arith op => exact hV.arith h op a b
  | and => simp only [Value.binary]; split <;> assumption
  | or => simp only [Value.binary]; split <;> assumption
  | _ => exact hV.data _ rfl

theorem literal (l : Literal) : V (Evaluator.literal l) := by
  cases l <;> exact hV.data _ rfl

theorem intrinsic {h : Heap} {v w : Value} {name : String} (he : v.intrinsic? h name = some w) :
    V w := by
  cases v with
  | array r =>
    simp only [Value.intrinsic?] at he
    split at he
    · cases he
      exact hV.data _ rfl
    · obtain ⟨m, -, rfl⟩ := Option.map_eq_some_iff.1 he
      exact hV.method _ _
  | text s =>
    simp only [Value.intrinsic?] at he
    split at he
    · cases he
      exact hV.data _ rfl
    · obtain ⟨m, -, rfl⟩ := Option.map_eq_some_iff.1 he
      exact hV.method _ _
  | _ => simp [Value.intrinsic?] at he

theorem getD {o : Option Value} (h : ∀ v, o = some v → V v) : V (o.getD .undefined) := by
  cases o with
  | none => exact hV.data _ rfl
  | some v => exact h v rfl

end Value.OnlyFunctions

namespace Fields

theorem mem_put {α : Type} {key : String} {value : α} {es : List (String × α)} {e : String × α}
    (h : e ∈ put key value es) : e ∈ es ∨ e.2 = value := by
  induction es with
  | nil =>
    simp only [put, List.mem_singleton] at h
    exact .inr (by rw [h])
  | cons d es ih =>
    obtain ⟨k, v⟩ := d
    simp only [put] at h
    split at h
    · rcases List.mem_cons.1 h with rfl | h
      · exact .inr rfl
      · exact .inl (List.mem_cons_of_mem _ h)
    · rcases List.mem_cons.1 h with rfl | h
      · exact .inl List.mem_cons_self
      · exact (ih h).imp_left (List.mem_cons_of_mem _)

theorem forall_set {α : Type} {P : α → Prop} {f : Fields α} (hf : ∀ e ∈ f.entries, P e.2)
    (key : String) {value : α} (hv : P value) : ∀ e ∈ (f.set key value).entries, P e.2 := by
  intro e he
  rcases mem_put he with he | he
  · exact hf e he
  · exact he ▸ hv

theorem forall_ofList {α : Type} {P : α → Prop} {es : List (String × α)}
    (h : ∀ e ∈ es, P e.2) : ∀ e ∈ (ofList es).entries, P e.2 := by
  have step (es : List (String × α)) (h : ∀ e ∈ es, P e.2) (f : Fields α)
      (hf : ∀ e ∈ f.entries, P e.2) :
      ∀ e ∈ (es.foldl (fun f e => f.set e.1 e.2) f).entries, P e.2 := by
    induction es generalizing f with
    | nil => exact hf
    | cons d es ih =>
      exact ih (fun e he => h e (List.mem_cons_of_mem _ he)) _
        (forall_set hf d.1 (h d List.mem_cons_self))
  exact step es h empty (by simp [empty])

theorem mem_of_get? {α : Type} {f : Fields α} {key : String} {v : α} (h : f.get? key = some v) :
    ∃ e ∈ f.entries, e.2 = v := by
  obtain ⟨l₁, l₂, he, -⟩ := List.lookup_eq_some_iff.1 h
  exact ⟨(key, v), by simp [he], rfl⟩

end Fields

structure Heap.Every (V : Value → Prop) (h : Heap) : Prop where
  items : ∀ r, ∀ v ∈ h.items r, V v
  fields : ∀ r, ∀ e ∈ (h.fields r).entries, V e.2

namespace Heap

theorem items_newArray (h : Heap) (xs : Array Value) (r : ArrayRef) :
    (h.newArray xs).2.items r = if r.index = h.arrays.size then xs else h.items r := by
  simp only [newArray, items, Array.getD_eq_getD_getElem?, Array.getElem?_push]
  split <;> rfl

theorem fields_newObject (h : Heap) (f : Fields Value) (r : ObjectRef) :
    (h.newObject f).2.fields r = if r.index = h.objects.size then f else h.fields r := by
  simp only [newObject, fields, Array.getD_eq_getD_getElem?, Array.getElem?_push]
  split <;> rfl

theorem items_modifyArray (h : Heap) (r q : ArrayRef) (f : Array Value → Array Value) :
    (h.modifyArray r f).items q = h.items q ∨ (h.modifyArray r f).items q = f (h.items r) := by
  simp only [modifyArray, items, Array.getD_eq_getD_getElem?, Array.getElem?_modify]
  by_cases hq : r.index = q.index
  · cases ha : h.arrays[q.index]? with
    | none => simp [hq, ha]
    | some xs => simp [hq, ha]
  · simp [hq]

theorem fields_setField (h : Heap) (r q : ObjectRef) (key : String) (v : Value) :
    (h.setField r key v).fields q = h.fields q ∨
      (h.setField r key v).fields q = (h.fields r).set key v := by
  simp only [setField, fields, Array.getD_eq_getD_getElem?, Array.getElem?_modify]
  by_cases hq : r.index = q.index
  · cases ha : h.objects[q.index]? with
    | none => simp [hq, ha]
    | some xs => simp [hq, ha]
  · simp [hq]

namespace Every

variable {V : Value → Prop} {h : Heap}

theorem empty : Heap.empty.Every V :=
  ⟨by simp [Heap.empty, Heap.items], by simp [Heap.empty, Heap.fields, Fields.empty]⟩

theorem newArray (hh : h.Every V) {xs : Array Value} (hx : ∀ v ∈ xs, V v) :
    (h.newArray xs).2.Every V := by
  refine ⟨fun r => ?_, hh.fields⟩
  rw [items_newArray]
  split
  · exact hx
  · exact hh.items r

theorem newObject (hh : h.Every V) {f : Fields Value} (hf : ∀ e ∈ f.entries, V e.2) :
    (h.newObject f).2.Every V := by
  refine ⟨hh.items, fun r => ?_⟩
  rw [fields_newObject]
  split
  · exact hf
  · exact hh.fields r

theorem modifyArray (hh : h.Every V) {r : ArrayRef} {f : Array Value → Array Value}
    (hf : ∀ v ∈ f (h.items r), V v) : (h.modifyArray r f).Every V := by
  refine ⟨fun q => ?_, hh.fields⟩
  rcases items_modifyArray h r q f with he | he
  · rw [he]
    exact hh.items q
  · rw [he]
    exact hf

theorem setField (hh : h.Every V) (r : ObjectRef) (key : String) {v : Value} (hv : V v) :
    (h.setField r key v).Every V := by
  refine ⟨hh.items, fun q => ?_⟩
  rcases fields_setField h r q key v with he | he
  · rw [he]
    exact hh.fields q
  · rw [he]
    exact Fields.forall_set (hh.fields r) key hv

end Every

end Heap

namespace Place

variable {V : Value → Prop} {h : Heap}

theorem readMember_every (hV : Value.OnlyFunctions V) (hh : h.Every V) {owner v : Value}
    {property : String} (he : readMember h owner property = .ok v) : V v := by
  have field (r : ObjectRef) : V (((h.fields r).get? property).getD .undefined) := by
    refine hV.getD fun w hw => ?_
    obtain ⟨e, hm, rfl⟩ := Fields.mem_of_get? hw
    exact hh.fields r e hm
  have intrinsic (o : Value) : V ((o.intrinsic? h property).getD .undefined) :=
    hV.getD fun w hw => hV.intrinsic hw
  unfold readMember at he
  split at he
  · simp at he
  · split at he
    · cases he
      exact field _
    · cases he
      exact intrinsic _

theorem readIndex_every (hV : Value.OnlyFunctions V) (hh : h.Every V) {owner index v : Value}
    (he : readIndex h owner index = .ok v) : V v := by
  unfold readIndex at he
  split at he
  · simp at he
  · split at he
    · cases he
      exact hV.getD fun w hw => hh.items _ w (Array.mem_of_getElem? hw)
    · cases he
      unfold charAt
      split <;> exact hV.data _ rfl
    · exact readMember_every hV hh he

theorem forall_resized (hV : Value.OnlyFunctions V) {items : Array Value}
    (hi : ∀ v ∈ items, V v) (n : Nat) : ∀ v ∈ resized items n, V v := by
  intro v hv
  unfold resized at hv
  split at hv
  · obtain ⟨k, hk, rfl⟩ := Array.mem_extract_iff_getElem.1 hv
    exact hi _ (Array.getElem_mem _)
  · rcases Array.mem_append.1 hv with hv | hv
    · exact hi v hv
    · rw [(Array.mem_replicate.1 hv).2]
      exact hV.data _ rfl

theorem forall_withElement (hV : Value.OnlyFunctions V) {items : Array Value}
    (hi : ∀ v ∈ items, V v) (i : Nat) {w : Value} (hw : V w) :
    ∀ v ∈ withElement items i w, V v := by
  intro v hv
  unfold withElement at hv
  rcases Array.mem_or_eq_of_mem_setIfInBounds hv with hv | rfl
  · split at hv
    · exact hi v hv
    · exact forall_resized hV hi _ v hv
  · exact hw

def Edit.Every (V : Value → Prop) : Edit → Prop
  | .nothing => True
  | .field _ _ v => V v
  | .element _ _ v => V v
  | .length _ _ => True

theorem Edit.apply_every (hV : Value.OnlyFunctions V) (hh : h.Every V) {e : Edit}
    (he : e.Every V) : (e.apply h).Every V := by
  cases e with
  | nothing => exact hh
  | field r key v => exact hh.setField r key he
  | element r i v => exact hh.modifyArray (forall_withElement hV (hh.items r) i he)
  | length r n => exact hh.modifyArray (forall_resized hV (hh.items r) n)

theorem setElement_every {r : ArrayRef} {i : Nat} {v : Value} (hv : V v) {e : Edit}
    (he : setElement r i v = .ok e) : e.Every V := by
  unfold setElement at he
  split at he
  · simp at he
  · cases he
    exact hv

theorem setMember_every {owner : Value} {key : String} {v : Value} (hv : V v) {e : Edit}
    (he : setMember h owner key v = .ok e) : e.Every V := by
  unfold setMember at he
  split at he
  · simp at he
  · split at he
    · cases he
      exact hv
    · split at he
      · unfold setLength at he
        split at he
        · cases he
          exact trivial
        · simp at he
      · split at he
        · exact setElement_every hv he
        · cases he
          exact trivial
    · cases he
      exact trivial

theorem setIndex_every {owner index v : Value} (hv : V v) {e : Edit}
    (he : setIndex h owner index v = .ok e) : e.Every V := by
  unfold setIndex at he
  split at he
  · exact setElement_every hv he
  · exact setMember_every hv he

end Place

namespace Method

variable {V : Value → Prop} {h : Heap}

theorem position_every (hV : Value.OnlyFunctions V) {α : Type} (p : α → Bool) (xs : List α) :
    V (position p xs) := by
  unfold position
  split <;> exact hV.data _ rfl

theorem mem_of_mem_cut {α : Type} {xs : List α} {args : List Value} {x : α}
    (hx : x ∈ cut h xs args) : x ∈ xs :=
  List.mem_of_mem_take (List.mem_of_mem_drop hx)

theorem mem_foldl_push {args : List Value} {items : Array Value} {v : Value}
    (hv : v ∈ args.foldl Array.push items) : v ∈ items ∨ v ∈ args := by
  induction args generalizing items with
  | nil => exact .inl hv
  | cons a args ih =>
    rcases ih hv with hv | hv
    · rcases Array.mem_push.1 hv with hv | rfl
      · exact .inl hv
      · exact .inr List.mem_cons_self
    · exact .inr (List.mem_cons_of_mem _ hv)

theorem callArray_every (hV : Value.OnlyFunctions V) (hh : h.Every V) (r : ArrayRef)
    {args : List Value} (ha : ∀ v ∈ args, V v) (m : ArrayMethod) :
    V (callArray h r args m).1 ∧ (callArray h r args m).2.Every V := by
  have hi := hh.items r
  cases m with
  | push =>
    refine ⟨hV.data _ rfl, hh.modifyArray fun v hv => ?_⟩
    exact (mem_foldl_push hv).elim (hi v) (ha v)
  | pop =>
    refine ⟨hV.getD fun v hv => hi v ?_, hh.modifyArray fun v hv => hi v ?_⟩
    · rw [Array.back?_eq_getElem?] at hv
      exact Array.mem_of_getElem? hv
    · rw [Array.mem_def, Array.toList_pop] at hv
      exact Array.mem_def.2 ((List.dropLast_sublist _).subset hv)
  | shift =>
    refine ⟨hV.getD fun v hv => hi v (Array.mem_of_getElem? hv),
      hh.modifyArray fun v hv => hi v ?_⟩
    obtain ⟨k, hk, rfl⟩ := Array.mem_extract_iff_getElem.1 hv
    exact Array.getElem_mem _
  | join => exact ⟨hV.data _ rfl, hh⟩
  | indexOf => exact ⟨position_every hV _ _, hh⟩
  | includes => exact ⟨hV.data _ rfl, hh⟩
  | slice =>
    refine ⟨hV.data _ rfl, hh.newArray fun v hv => hi v ?_⟩
    exact Array.mem_def.2 (mem_of_mem_cut (List.mem_toArray.1 hv))
  | reverse => exact ⟨hV.data _ rfl, hh.modifyArray fun v hv => hi v (Array.mem_reverse.1 hv)⟩

theorem callText_every (hV : Value.OnlyFunctions V) (hh : h.Every V) (s : String)
    (args : List Value) (m : TextMethod) :
    V (callText h s args m).1 ∧ (callText h s args m).2.Every V := by
  cases m with
  | split =>
    refine ⟨hV.data _ rfl, hh.newArray fun v hv => ?_⟩
    obtain ⟨t, -, rfl⟩ := List.mem_map.1 (List.mem_toArray.1 hv)
    exact hV.data _ rfl
  | indexOf =>
    simp only [callText]
    refine ⟨?_, hh⟩
    split <;> exact hV.data _ rfl
  | _ => exact ⟨hV.data _ rfl, hh⟩

theorem Bound.call_every (hV : Value.OnlyFunctions V) (hh : h.Every V) {args : List Value}
    (ha : ∀ v ∈ args, V v) (b : Bound) : V (b.call h args).1 ∧ (b.call h args).2.Every V := by
  cases b with
  | array r m => exact callArray_every hV hh r ha m
  | text s m => exact callText_every hV hh s args m

end Method

end CanvasScript
