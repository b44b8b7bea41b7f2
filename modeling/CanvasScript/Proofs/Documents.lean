import CanvasScript.Json.Write
import CanvasScript.Proofs.Documents.Numerals
import CanvasScript.Proofs.Traversals

namespace CanvasScript.Json

variable (spread : Spread)

mutual

theorem writeTo_extends (depth : Nat) (out : String) :
    (j : Json) → ∃ t, writeTo spread depth out j = out ++ t
  | .null => ⟨_, rfl⟩
  | .bool _ => ⟨_, rfl⟩
  | .number _ => ⟨_, rfl⟩
  | .text _ => ⟨_, rfl⟩
  | .array [] => ⟨_, rfl⟩
  | .array (item :: items) => by
    obtain ⟨t, ht⟩ := writeTo_extends (depth + 1) (out ++ "[" ++ spread.break_ (depth + 1)) item
    obtain ⟨u, hu⟩ := writeItems_extends (depth + 1) (out ++ "[" ++ spread.break_ (depth + 1) ++ t)
      items
    refine ⟨"[" ++ spread.break_ (depth + 1) ++ t ++ u ++ spread.break_ depth ++ "]", ?_⟩
    rw [writeTo, ht, hu]
    simp only [String.append_assoc]
  | .object [] => ⟨_, rfl⟩
  | .object ((key, value) :: fields) => by
    let opening := "\x7b" ++ spread.break_ (depth + 1) ++ quoted key.value ++ spread.colon
    obtain ⟨t, ht⟩ := writeTo_extends (depth + 1) (out ++ opening) value
    obtain ⟨u, hu⟩ := writeFields_extends (depth + 1) (out ++ opening ++ t) fields
    refine ⟨opening ++ t ++ u ++ spread.break_ depth ++ "\x7d", ?_⟩
    simp only [opening, ← String.append_assoc] at ht hu ⊢
    rw [writeTo, ht, hu]

theorem writeItems_extends (depth : Nat) (out : String) :
    (items : List Json) → ∃ t, writeItems spread depth out items = out ++ t
  | [] => ⟨"", by rw [writeItems, String.append_empty]⟩
  | item :: items => by
    obtain ⟨t, ht⟩ := writeTo_extends depth (out ++ "," ++ spread.break_ depth) item
    obtain ⟨u, hu⟩ := writeItems_extends depth (out ++ "," ++ spread.break_ depth ++ t) items
    refine ⟨"," ++ spread.break_ depth ++ t ++ u, ?_⟩
    rw [writeItems, ht, hu]
    simp only [String.append_assoc]

theorem writeFields_extends (depth : Nat) (out : String) :
    (fields : List (Text × Json)) → ∃ t, writeFields spread depth out fields = out ++ t
  | [] => ⟨"", by rw [writeFields, String.append_empty]⟩
  | (key, value) :: fields => by
    let opening := "," ++ spread.break_ depth ++ quoted key.value ++ spread.colon
    obtain ⟨t, ht⟩ := writeTo_extends depth (out ++ opening) value
    obtain ⟨u, hu⟩ := writeFields_extends depth (out ++ opening ++ t) fields
    refine ⟨opening ++ t ++ u, ?_⟩
    simp only [opening, ← String.append_assoc] at ht hu ⊢
    rw [writeFields, ht, hu]

end

theorem pretty_array (items : List Json) :
    (array items).pretty = "[]" ∨ ∃ t, (array items).pretty = "[\n" ++ t := by
  cases items with
  | nil => exact .inl rfl
  | cons item items =>
    obtain ⟨t, ht⟩ := writeTo_extends .indented 1 ("" ++ "[" ++ Spread.indented.break_ 1) item
    obtain ⟨u, hu⟩ := writeItems_extends .indented 1 ("" ++ "[" ++ Spread.indented.break_ 1 ++ t)
      items
    refine .inr ⟨"  " ++ t ++ u ++ Spread.indented.break_ 0 ++ "]", ?_⟩
    rw [pretty, writeTo, ht, hu]
    simp only [String.append_assoc]
    rfl

theorem pretty_object (fields : List (Text × Json)) :
    ∃ t, (object fields).pretty = "\x7b" ++ t := by
  rcases fields with - | ⟨⟨key, value⟩, fields⟩
  · exact ⟨"\x7d", rfl⟩
  · let opening := "\n  " ++ quoted key.value ++ ": "
    obtain ⟨t, ht⟩ := writeTo_extends .indented 1 ("" ++ "\x7b" ++ opening) value
    obtain ⟨u, hu⟩ := writeFields_extends .indented 1 ("" ++ "\x7b" ++ opening ++ t) fields
    refine ⟨opening ++ t ++ u ++ Spread.indented.break_ 0 ++ "\x7d", ?_⟩
    simp only [opening, ← String.append_assoc] at ht hu ⊢
    rw [pretty, writeTo, show Spread.indented.break_ (0 + 1) = "\n  " from rfl]
    rw [show Spread.indented.colon = ": " from rfl, ht, hu]
    rfl

end CanvasScript.Json

namespace CanvasScript

def Value.contents (h : Heap) : Value → List Value
  | .array r => (h.items r).toList
  | .object r => (h.fields r).entries.map (·.2)
  | _ => []

def Heap.Holds (h : Heap) (v w : Value) : Prop := w ∈ v.contents h

namespace Console

open Relation (ReflTransGen TransGen)

def Container.value : Container → Value
  | .array r => .array r
  | .object r => .object r

def container? : Value → Option Container
  | .array r => some (.array r)
  | .object r => some (.object r)
  | _ => none

theorem container?_value (c : Container) : container? c.value = some c := by
  cases c <;> rfl

theorem value_of_container? {v : Value} {c : Container} (h : container? v = some c) :
    v = c.value := by
  cases v <;> cases h <;> rfl

def Cyclic (h : Heap) (v : Value) : Prop :=
  ∃ c : Container, ReflTransGen h.Holds v c.value ∧ TransGen h.Holds c.value c.value

def containers (h : Heap) : Finset Container :=
  (Finset.range h.arrays.size).image (fun i => .array ⟨i⟩) ∪
    (Finset.range h.objects.size).image (fun i => .object ⟨i⟩)

theorem unopened_containers_le (h : Heap) (path : List Container) :
    unopened (containers h) path ≤ h.size :=
  calc unopened (containers h) path
    _ ≤ (containers h).card := unopened_le _ _
    _ ≤ _ + _ := Finset.card_union_le _ _
    _ ≤ (Finset.range h.arrays.size).card + (Finset.range h.objects.size).card :=
      Nat.add_le_add Finset.card_image_le Finset.card_image_le
    _ = h.size := by rw [Finset.card_range, Finset.card_range, Heap.size]

theorem mem_containers {h : Heap} {c : Container} {w : Value} (hw : w ∈ c.value.contents h) :
    c ∈ containers h := by
  cases c with
  | array r =>
    have made : r.index < h.arrays.size := by
      by_contra beyond
      simp [Container.value, Value.contents, Heap.items, Array.getD, beyond] at hw
    exact Finset.mem_union_left _ (Finset.mem_image.2 ⟨r.index, Finset.mem_range.2 made, rfl⟩)
  | object r =>
    have made : r.index < h.objects.size := by
      by_contra beyond
      simp [Container.value, Value.contents, Heap.fields, Array.getD, beyond, Fields.empty] at hw
    exact Finset.mem_union_right _ (Finset.mem_image.2 ⟨r.index, Finset.mem_range.2 made, rfl⟩)

def Container.document (h : Heap) : Container → List (Option Json) → Json
  | .array _, js => .array (js.map (·.getD .null))
  | .object r, js => .object <| (List.zipWith
      (fun e j? => j?.map fun j => (Json.Text.of e.1, j)) (h.fields r).entries js).filterMap id

variable {h : Heap} {path : List Container} {depth : Nat} {v : Value} {c : Container}

theorem enough_for_contents (hd : unopened (containers h) path < depth + 1) (hc : c ∉ path)
    (hv : v ∈ c.value.contents h) : unopened (containers h) (c :: path) < depth := by
  have fewer := unopened_cons_lt (mem_containers hv) hc
  omega

theorem toJson_container (h : Heap) (depth : Nat) (path : List Container) (c : Container) :
    toJson h (depth + 1) path c.value =
      if c ∈ path then .error ⟨⟩
      else ((c.value.contents h).mapM (toJson h depth (c :: path))).map
        fun js => some (c.document h js) := by
  cases c with
  | array r =>
    simp only [Container.value, toJson, List.contains_iff_mem, Value.contents]
    refine if_congr Iff.rfl rfl ?_
    cases (h.items r).toList.mapM (toJson h depth (.array r :: path)) <;> rfl
  | object r =>
    simp only [Container.value, toJson, List.contains_iff_mem, Value.contents]
    refine if_congr Iff.rfl rfl ?_
    rw [mapM_map_zipWith]
    cases ((h.fields r).entries.map (·.2)).mapM (toJson h depth (.object r :: path)) <;> rfl

/-- What a value is spelled as, if JSON has a spelling for it. An object keeps its properties in
their order but for those that have none, and an array has null in the place of such elements. -/
inductive Spelled (h : Heap) : Value → Option Json → Prop
  | number {x : Float} {j : Json} : NumeralOf x j → Spelled h (.number x) (some j)
  | text (s : String) : Spelled h (.text s) (some (.str s))
  | bool (b : Bool) : Spelled h (.bool b) (some (.bool b))
  | null : Spelled h .null (some .null)
  | undefined : Spelled h .undefined none
  | callable {v : Value} : v.isCallable = true → Spelled h v none
  | array {r : ArrayRef} {j? : Value → Option Json} :
      (∀ v ∈ (h.items r).toList, Spelled h v (j? v)) →
      Spelled h (.array r) (some (.array ((h.items r).toList.map fun v => (j? v).getD .null)))
  | object {r : ObjectRef} {j? : Value → Option Json} :
      (∀ e ∈ (h.fields r).entries, Spelled h e.2 (j? e.2)) →
      Spelled h (.object r) (some (.object
        ((h.fields r).entries.filterMap fun e => (j? e.2).map fun j => (.of e.1, j))))

namespace Spelled

theorem container {j? : Value → Option Json}
    (hc : ∀ v ∈ c.value.contents h, Spelled h v (j? v)) :
    Spelled h c.value (some (c.document h ((c.value.contents h).map j?))) := by
  cases c with
  | array r =>
    have spelled : Spelled h (.array r) _ := .array hc
    simpa [Container.document, Container.value, Value.contents, Function.comp_def] using spelled
  | object r =>
    have spelled : Spelled h (.object r) _ :=
      .object fun e he => hc e.2 (List.mem_map.2 ⟨e, he, rfl⟩)
    simpa [Container.document, Container.value, Value.contents, List.zipWith_map_right,
      List.zipWith_self, List.filterMap_map, Function.comp_def] using spelled

theorem unique {j j' : Option Json} (hj : Spelled h v j) (hj' : Spelled h v j') : j = j' := by
  induction hj generalizing j' with
  | number hx =>
    cases hj' with
    | number hx' => rw [hx.unique hx']
    | callable hv => cases hv
  | array _ ih =>
    cases hj' with
    | array hv' =>
      congr 2
      exact List.map_congr_left fun v hv => by rw [ih v hv (hv' v hv)]
    | callable hv => cases hv
  | object _ ih =>
    cases hj' with
    | object hv' =>
      congr 2
      exact List.filterMap_congr fun e he => by rw [ih e he (hv' e he)]
    | callable hv => cases hv
  | callable hv => cases hj' <;> first | rfl | cases hv
  | _ => cases hj' <;> first | rfl | contradiction

theorem acc {j : Option Json} (hj : Spelled h v j) : Acc (fun w v => h.Holds v w) v := by
  induction hj with
  | array _ ih => exact ⟨_, fun w hw => ih w hw⟩
  | object _ ih =>
    refine ⟨_, fun w hw => ?_⟩
    obtain ⟨e, he, rfl⟩ := List.mem_map.1 hw
    exact ih e he
  | @callable v hv =>
    cases v with
    | function f => exact ⟨_, fun w hw => nomatch hw⟩
    | native n => exact ⟨_, fun w hw => nomatch hw⟩
    | method u m => exact ⟨_, fun w hw => nomatch hw⟩
    | _ => cases hv
  | _ => exact ⟨_, fun w hw => nomatch hw⟩

end Spelled

theorem toJson_plain (hv : container? v = none) :
    ∃ j, Spelled h v j ∧ ∀ depth path, toJson h depth path v = .ok j := by
  cases v with
  | number x => exact ⟨_, .number (numberJson_spec x), fun _ _ => by simp only [toJson]⟩
  | text s => exact ⟨_, .text s, fun _ _ => by simp only [toJson]⟩
  | bool b => exact ⟨_, .bool b, fun _ _ => by simp only [toJson]⟩
  | null => exact ⟨_, .null, fun _ _ => by simp only [toJson]⟩
  | undefined => exact ⟨_, .undefined, fun _ _ => by simp only [toJson]⟩
  | array r => cases hv
  | object r => cases hv
  | _ => exact ⟨_, .callable rfl, fun _ _ => by simp only [toJson]⟩

theorem spelled_of_ok {j : Option Json} (hj : toJson h depth path v = .ok j) : Spelled h v j := by
  have plain {depth : Nat} {path : List Container} {v : Value} {j : Option Json}
      (hv : container? v = none) (hj : toJson h depth path v = .ok j) : Spelled h v j := by
    obtain ⟨i, spelled, written⟩ := toJson_plain (h := h) hv
    exact Except.ok.inj ((written depth path).symm.trans hj) ▸ spelled
  induction depth generalizing path v j with
  | zero =>
    cases hc : container? v with
    | none => exact plain hc hj
    | some c =>
      obtain rfl := value_of_container? hc
      cases c <;> simp [Container.value, toJson] at hj
  | succ depth ih =>
    cases hc : container? v with
    | none => exact plain hc hj
    | some c =>
      obtain rfl := value_of_container? hc
      rw [toJson_container] at hj
      split at hj
      · cases hj
      · cases hm : (c.value.contents h).mapM (toJson h depth (c :: path)) with
        | error e => rw [hm] at hj; cases hj
        | ok js =>
          have results : ∀ w ∈ c.value.contents h, toJson h depth (c :: path) w =
              .ok (toJson h depth (c :: path) w).toOption.join := by
            intro w hw
            obtain ⟨i, hi⟩ := ok_of_mapM hm w hw
            simp [hi, Except.toOption]
          rw [mapM_ok results] at hj
          exact Except.ok.inj hj ▸ Spelled.container fun w hw => ih (results w hw)

theorem cyclic_of_error (hd : unopened (containers h) path < depth) {e : Circular}
    (he : toJson h depth path v = .error e) :
    (∃ c ∈ path, ReflTransGen h.Holds v c.value) ∨ Cyclic h v := by
  induction depth generalizing path v with
  | zero => exact absurd hd (Nat.not_lt_zero _)
  | succ depth ih =>
    cases hc : container? v with
    | none =>
      obtain ⟨j, -, written⟩ := toJson_plain (h := h) hc
      rw [written] at he
      cases he
    | some c =>
      obtain rfl := value_of_container? hc
      by_cases open_ : c ∈ path
      · exact .inl ⟨c, open_, .refl⟩
      · rw [toJson_container, if_neg open_] at he
        cases hm : (c.value.contents h).mapM (toJson h depth (c :: path)) with
        | ok js => rw [hm] at he; cases he
        | error e' =>
          obtain ⟨w, hw, hw'⟩ := error_of_mapM hm
          rcases ih (enough_for_contents hd open_ hw) hw' with ⟨d, hd, reached⟩ | ⟨d, reached, loop⟩
          · rcases List.mem_cons.1 hd with rfl | hd
            · exact .inr ⟨d, .refl, .head' hw reached⟩
            · exact .inl ⟨d, hd, .head hw reached⟩
          · exact .inr ⟨d, .head hw reached, loop⟩

theorem no_loop_of_acc (ha : Acc (fun w v => h.Holds v w) v) : ¬ TransGen h.Holds v v := by
  induction ha with
  | intro v _ ih =>
    intro loop
    obtain ⟨w, first, back⟩ := TransGen.head'_iff.1 loop
    exact ih w first (.tail' back first)

theorem Spelled.not_cyclic {j : Option Json} (hj : Spelled h v j) : ¬ Cyclic h v := by
  rintro ⟨c, reached, loop⟩
  have below {w : Value} (hw : ReflTransGen h.Holds v w) : Acc (fun w v => h.Holds v w) w := by
    induction hw with
    | refl => exact hj.acc
    | tail _ step ih => exact ih.inv step
  exact no_loop_of_acc (below reached) loop

section Answer

variable (hd : h.size < depth)
include hd

theorem toJson_ok_iff {j : Option Json} : toJson h depth [] v = .ok j ↔ Spelled h v j := by
  refine ⟨spelled_of_ok, fun hj => ?_⟩
  cases hv : toJson h depth [] v with
  | ok i => rw [(spelled_of_ok hv).unique hj]
  | error e =>
    have enough := Nat.lt_of_le_of_lt (unopened_containers_le h []) hd
    rcases cyclic_of_error enough hv with ⟨c, none, -⟩ | cyclic
    · cases none
    · exact absurd cyclic hj.not_cyclic

theorem toJson_error_iff : toJson h depth [] v = .error ⟨⟩ ↔ Cyclic h v := by
  have enough := Nat.lt_of_le_of_lt (unopened_containers_le h []) hd
  constructor
  · intro he
    rcases cyclic_of_error enough he with ⟨c, none, -⟩ | cyclic
    · cases none
    · exact cyclic
  · intro cyclic
    cases hv : toJson h depth [] v with
    | error e => rfl
    | ok j => exact absurd cyclic (spelled_of_ok hv).not_cyclic

theorem toJson_stable : toJson h depth [] v = toJson h (h.size + 1) [] v := by
  cases hv : toJson h depth [] v with
  | ok j => exact ((toJson_ok_iff (Nat.lt_succ_self _)).2 ((toJson_ok_iff hd).1 hv)).symm
  | error e => exact ((toJson_error_iff (Nat.lt_succ_self _)).2 ((toJson_error_iff hd).1 hv)).symm

end Answer

def spell (h : Heap) :
    Nat → Value → ExceptT Circular (StateT (List Container) Option) (Option Json)
  | 0, _ => ExceptT.mk fun _ => none
  | depth + 1, v =>
    match container? v with
    | none => ExceptT.mk (pure (toJson h 0 [] v))
    | some c => do
      if (← get).contains c then throw ⟨⟩
      else
        modify (c :: ·)
        let js ← (v.contents h).mapM (spell h depth)
        modify List.tail
        return some (c.document h js)

theorem run_get_bind {α : Type}
    (k : List Container → ExceptT Circular (StateT (List Container) Option) α) :
    (get >>= k).run.run path = (k path).run.run path := rfl

theorem spell_open (hc : c ∈ path) :
    (spell h (depth + 1) c.value).run.run path = some (.error ⟨⟩, path) := by
  rw [spell, container?_value]
  dsimp only
  rw [run_get_bind, if_pos (List.contains_iff_mem.2 hc)]
  rfl

theorem spell_closed (hc : c ∉ path) : (spell h (depth + 1) c.value).run.run path =
    (((c.value.contents h).mapM (spell h depth)).run.run (c :: path)).map fun (js, stack) =>
      (js.map fun js => some (c.document h js), if js.isOk then stack.tail else stack) := by
  rw [spell, container?_value]
  dsimp only
  rw [run_get_bind, if_neg (mt List.contains_iff_mem.1 hc)]
  show (((c.value.contents h).mapM (spell h depth)).run.run (c :: path)).bind _ = _
  rcases ((c.value.contents h).mapM (spell h depth)).run.run (c :: path) with
    - | ⟨e | js, stack⟩ <;> rfl

theorem spell_run (hd : unopened (containers h) path < depth) (v : Value) :
    ∃ stack, (spell h depth v).run.run path = some (toJson h depth path v, stack) ∧
      ∀ j, toJson h depth path v = .ok j → stack = path := by
  induction depth generalizing path v with
  | zero => exact absurd hd (Nat.not_lt_zero _)
  | succ depth ih =>
    cases hc : container? v with
    | none =>
      obtain ⟨j, -, written⟩ := toJson_plain (h := h) hc
      refine ⟨path, ?_, fun _ _ => rfl⟩
      rw [spell, hc, written, written]
      rfl
    | some c =>
      obtain rfl := value_of_container? hc
      rw [toJson_container]
      by_cases open_ : c ∈ path
      · exact ⟨path, by rw [spell_open open_, if_pos open_], fun _ _ => rfl⟩
      · have contents : ∀ w ∈ c.value.contents h, ∃ stack, (spell h depth w).run.run (c :: path) =
            some (toJson h depth (c :: path) w, stack) ∧
            ∀ j, toJson h depth (c :: path) w = .ok j → stack = c :: path := by
          intro w hw
          exact ih (enough_for_contents hd open_ hw) w
        obtain ⟨stack, ran, kept⟩ := mapM_run_agrees contents
        rw [spell_closed open_, if_neg open_, ran]
        cases hm : (c.value.contents h).mapM (toJson h depth (c :: path)) with
        | error e => exact ⟨stack, rfl, fun j hj => by cases hj⟩
        | ok js => exact ⟨path, by rw [kept js hm]; rfl, fun _ _ => rfl⟩

theorem Container.pretty_document (c : Container) (js : List (Option Json)) :
    (c.document h js).pretty ≠ "[Circular Object]" := by
  intro same
  cases c with
  | array r =>
    rcases Json.pretty_array (js.map (·.getD .null)) with empty | ⟨t, spread⟩
    · exact absurd (empty.symm.trans same) (by decide)
    · have chars := congrArg String.toList (spread.symm.trans same)
      simp at chars
  | object r =>
    obtain ⟨t, ht⟩ := Json.pretty_object _
    have chars := congrArg String.toList (ht.symm.trans same)
    simp at chars

theorem formatArg_container (c : Container) : formatArg h c.value =
    match toJson h (h.size + 1) [] c.value with
    | .ok (some j) => j.pretty
    | .ok none => ""
    | .error _ => "[Circular Object]" := by
  cases c <;> rfl

theorem formatArg_of_spelled {c : Container} {j : Json} (hj : Spelled h c.value (some j)) :
    formatArg h c.value = j.pretty := by
  rw [formatArg_container, (toJson_ok_iff (Nat.lt_succ_self _)).2 hj]

theorem formatArg_of_cyclic {c : Container} (hc : Cyclic h c.value) :
    formatArg h c.value = "[Circular Object]" := by
  rw [formatArg_container, (toJson_error_iff (Nat.lt_succ_self _)).2 hc]

theorem Spelled.is_document {c : Container} {j? : Option Json} (hj : Spelled h c.value j?) :
    ∃ js, j? = some (c.document h js) := by
  have written := (toJson_ok_iff (Nat.lt_succ_self h.size)).2 hj
  rw [toJson_container, if_neg (List.not_mem_nil)] at written
  cases hm : (c.value.contents h).mapM (toJson h h.size [c]) with
  | error e => rw [hm] at written; cases written
  | ok js => rw [hm] at written; exact ⟨js, (Except.ok.inj written).symm⟩

theorem exists_spelled {c : Container} (acyclic : ¬ Cyclic h c.value) :
    ∃ js, Spelled h c.value (some (c.document h js)) := by
  cases hv : toJson h (h.size + 1) [] c.value with
  | error e => exact absurd ((toJson_error_iff (Nat.lt_succ_self _)).1 hv) acyclic
  | ok j? =>
    have spelled := (toJson_ok_iff (Nat.lt_succ_self _)).1 hv
    obtain ⟨js, rfl⟩ := spelled.is_document
    exact ⟨js, spelled⟩

theorem formatArg_circular_iff (c : Container) :
    formatArg h c.value = "[Circular Object]" ↔ Cyclic h c.value := by
  refine ⟨fun circle => ?_, formatArg_of_cyclic⟩
  by_contra acyclic
  obtain ⟨js, spelled⟩ := exists_spelled acyclic
  exact c.pretty_document js ((formatArg_of_spelled spelled).symm.trans circle)

theorem circle_or_document (h : Heap) :
    (∀ v, (∀ depth, h.size < depth →
        ∃ stack, (spell h depth v).run.run [] = some (toJson h (h.size + 1) [] v, stack)) ∧
      (toJson h (h.size + 1) [] v = .error ⟨⟩ ↔ Cyclic h v) ∧
      ∀ j?, toJson h (h.size + 1) [] v = .ok j? ↔ Spelled h v j?) ∧
    ∀ c : Container, (formatArg h c.value = "[Circular Object]" ↔ Cyclic h c.value) ∧
      (¬ Cyclic h c.value → ∃ j, Spelled h c.value (some j) ∧ formatArg h c.value = j.pretty) := by
  refine ⟨fun v => ⟨fun depth hd => ?_, toJson_error_iff (Nat.lt_succ_self _),
    fun j? => toJson_ok_iff (Nat.lt_succ_self _)⟩,
    fun c => ⟨formatArg_circular_iff c, fun acyclic => ?_⟩⟩
  · have enough := Nat.lt_of_le_of_lt (unopened_containers_le h []) hd
    obtain ⟨stack, ran, -⟩ := spell_run enough v
    exact ⟨stack, toJson_stable hd ▸ ran⟩
  · obtain ⟨js, spelled⟩ := exists_spelled acyclic
    exact ⟨_, spelled, formatArg_of_spelled spelled⟩

example : formatArg ⟨#[#[.object ⟨0⟩, .object ⟨0⟩]], #[.empty]⟩ (.array ⟨0⟩) =
    "[\n  \x7b\x7d,\n  \x7b\x7d\n]" := by decide

end Console

end CanvasScript
