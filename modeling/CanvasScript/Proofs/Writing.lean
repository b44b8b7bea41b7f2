import CanvasScript.Proofs.Indexing
import CanvasScript.Proofs.Rationals

namespace CanvasScript

open Number (value? spelledIndex?_eq_some_iff)

namespace Fields

variable {α : Type} {key : String} {v : α}

inductive Updated (key : String) (v : α) : List (String × α) → List (String × α) → Prop
  | replaced {before after : List (String × α)} {old : α} : (∀ e ∈ before, e.1 ≠ key) →
      Updated key v (before ++ (key, old) :: after) (before ++ (key, v) :: after)
  | added {entries : List (String × α)} : (∀ e ∈ entries, e.1 ≠ key) →
      Updated key v entries (entries ++ [(key, v)])

theorem Updated.cons {entries entries' : List (String × α)} {e : String × α} (he : e.1 ≠ key)
    (h : Updated key v entries entries') : Updated key v (e :: entries) (e :: entries') := by
  cases h with
  | @replaced before after old hb =>
    have behind : ∀ d ∈ e :: before, d.1 ≠ key := List.forall_mem_cons.2 ⟨he, hb⟩
    exact .replaced behind
  | added hb => exact .added (List.forall_mem_cons.2 ⟨he, hb⟩)

theorem put_updated (key : String) (v : α) (entries : List (String × α)) :
    Updated key v entries (put key v entries) := by
  induction entries with
  | nil => exact .added nofun
  | cons e entries ih =>
    obtain ⟨k, old⟩ := e
    by_cases hk : k = key
    · subst hk
      rw [put, if_pos rfl]
      have nothing : ∀ e ∈ ([] : List (String × α)), e.1 ≠ k := nofun
      exact .replaced nothing
    · rw [put, if_neg hk]
      exact ih.cons hk

theorem lookup_append_of_ne {before : List (String × α)} (h : ∀ e ∈ before, e.1 ≠ key)
    (after : List (String × α)) : (before ++ (key, v) :: after).lookup key = some v := by
  induction before with
  | nil => simp
  | cons e before ih =>
    obtain ⟨first, rest⟩ := List.forall_mem_cons.1 h
    rw [List.cons_append, List.lookup_cons, beq_false_of_ne first.symm]
    exact ih rest

theorem Updated.lookup {entries entries' : List (String × α)}
    (h : Updated key v entries entries') : entries'.lookup key = some v := by
  cases h with
  | replaced hb => exact lookup_append_of_ne hb _
  | added hb => exact lookup_append_of_ne hb []

end Fields

namespace Heap

variable {h h' : Heap}

structure SameButArray (r : ArrayRef) (h h' : Heap) : Prop where
  objects : h'.objects = h.objects
  size : h'.arrays.size = h.arrays.size
  others : ∀ q ≠ r, h'.items q = h.items q

structure SameButObject (r : ObjectRef) (h h' : Heap) : Prop where
  arrays : h'.arrays = h.arrays
  size : h'.objects.size = h.objects.size
  others : ∀ q ≠ r, h'.fields q = h.fields q

theorem modifyArray_sameBut (h : Heap) (r : ArrayRef) (f : Array Value → Array Value) :
    SameButArray r h (h.modifyArray r f) where
  objects := rfl
  size := Array.size_modify
  others q hq := by
    have ne : r.index ≠ q.index := fun same => hq (congrArg ArrayRef.mk same.symm)
    simp [modifyArray, items, Array.getD_eq_getD_getElem?, Array.getElem?_modify, ne]

theorem setField_sameBut (h : Heap) (r : ObjectRef) (key : String) (v : Value) :
    SameButObject r h (h.setField r key v) where
  arrays := rfl
  size := Array.size_modify
  others q hq := by
    have ne : r.index ≠ q.index := fun same => hq (congrArg ObjectRef.mk same.symm)
    simp [setField, fields, Array.getD_eq_getD_getElem?, Array.getElem?_modify, ne]

theorem items_modifyArray_self {r : ArrayRef} (live : r.index < h.arrays.size)
    (f : Array Value → Array Value) : (h.modifyArray r f).items r = f (h.items r) := by
  simp [modifyArray, items, Array.getD_eq_getD_getElem?, live, Array.getElem_modify_self]

theorem fields_setField_self {r : ObjectRef} (live : r.index < h.objects.size) (key : String)
    (v : Value) : (h.setField r key v).fields r = (h.fields r).set key v := by
  simp [setField, fields, Array.getD_eq_getD_getElem?, live, Array.getElem_modify_self]

end Heap

namespace Place

structure ElementSet (items : Array Value) (i : Nat) (v : Value) (items' : Array Value) :
    Prop where
  size : items'.size = max items.size (i + 1)
  element : items'[i]? = some v
  kept : ∀ j < items.size, j ≠ i → items'[j]? = items[j]?
  gap : ∀ j < i, items.size ≤ j → items'[j]? = some .undefined

structure Resized (items : Array Value) (n : Nat) (items' : Array Value) : Prop where
  size : items'.size = n
  kept : ∀ j < n, j < items.size → items'[j]? = items[j]?
  filled : ∀ j < n, items.size ≤ j → items'[j]? = some .undefined

theorem resized_resized (items : Array Value) (n : Nat) : Resized items n (resized items n) := by
  unfold resized
  split
  · exact {
      size := by simpa
      kept := fun j hj _ => by simp [Array.getElem?_extract, hj]
      filled := fun j hj hs => by omega }
  · exact {
      size := by simp; omega
      kept := fun j _ hs => Array.getElem?_append_left hs
      filled := fun j hj hs => by
        rw [Array.getElem?_append_right hs, Array.getElem?_replicate, if_pos (by omega)] }

theorem withElement_elementSet (items : Array Value) (i : Nat) (v : Value) :
    ElementSet items i v (withElement items i v) := by
  unfold withElement
  split
  · exact {
      size := by simp; omega
      element := by simp [*]
      kept := fun j _ hj => Array.getElem?_setIfInBounds_ne hj.symm
      gap := fun j hj hs => by omega }
  · have grown := resized_resized items (i + 1)
    exact {
      size := by rw [Array.size_setIfInBounds, grown.size]; omega
      element := Array.getElem?_setIfInBounds_self_of_lt (by rw [grown.size]; omega)
      kept := fun j hs hj => by
        rw [Array.getElem?_setIfInBounds_ne hj.symm]
        exact grown.kept j (by omega) hs
      gap := fun j hj hs => by
        rw [Array.getElem?_setIfInBounds_ne (by omega)]
        exact grown.filled j (by omega) hs }

section Properties

variable {h h' : Heap} {v owner : Value} {key : String}

def Lives (h : Heap) : Value → Prop
  | .array r => r.index < h.arrays.size
  | .object r => r.index < h.objects.size
  | _ => True

inductive Refused (h : Heap) (v : Value) : Value → String → Failure → Prop
  | owner {owner : Value} {key : String} : owner.isNullish = true →
      Refused h v owner key (.setProperty key owner.kind)
  | element {r : ArrayRef} {i : Nat} : maxArrayLength ≤ i → i < Number.pow2 64 →
      Refused h v (.array r) (toString i) (.arrayIndex i)
  | length {r : ArrayRef} : (∀ n ≤ maxArrayLength, value? (v.toNumber h) ≠ some (n : ℚ)) →
      Refused h v (.array r) "length" (.arrayLength (v.display h))

inductive Becomes (h : Heap) (v : Value) : Value → String → Heap → Option Value → Prop
  | property {r : ObjectRef} {key : String} {h' : Heap} : h.SameButObject r h' →
      Fields.Updated key v (h.fields r).entries (h'.fields r).entries →
      Becomes h v (.object r) key h' (some v)
  | element {r : ArrayRef} {i : Nat} {h' : Heap} : i < maxArrayLength → h.SameButArray r h' →
      ElementSet (h.items r) i v (h'.items r) → Becomes h v (.array r) (toString i) h' (some v)
  | length {r : ArrayRef} {n : Nat} {h' : Heap} : n ≤ maxArrayLength →
      value? (v.toNumber h) = some (n : ℚ) → h.SameButArray r h' →
      Resized (h.items r) n (h'.items r) →
      Becomes h v (.array r) "length" h' (some (.number (Number.ofNat n)))
  | noElement {r : ArrayRef} {key : String} : key ≠ "length" →
      (∀ i < Number.pow2 64, key ≠ toString i) → Becomes h v (.array r) key h none
  | ignored {owner : Value} {key : String} : owner.isNullish = false → (∀ r, owner ≠ .array r) →
      (∀ r, owner ≠ .object r) → Becomes h v owner key h none

theorem setElement_spec {r : ArrayRef} {i : Nat} (live : Lives h (.array r))
    (hi : i < Number.pow2 64) (v : Value) :
    (∃ f, setElement r i v = .error f ∧ Refused h v (.array r) (toString i) f) ∨
      ∃ e, setElement r i v = .ok e ∧ Becomes h v (.array r) (toString i) (e.apply h) (some v) := by
  unfold setElement
  split
  · exact .inl ⟨_, rfl, .element ‹_› hi⟩
  · refine .inr ⟨_, rfl, .element (by omega) (h.modifyArray_sameBut r _) ?_⟩
    rw [Edit.apply, Heap.items_modifyArray_self live]
    exact withElement_elementSet _ i v

theorem length?_eq_some_iff {n : Nat} {x : Float} :
    Number.toNat? (maxArrayLength + 1) x = some n ↔
      value? x = some (n : ℚ) ∧ n ≤ maxArrayLength := by
  have bound : maxArrayLength + 1 ≤ Number.pow2 52 := by decide
  rw [Number.toNat?_eq_some_iff bound, Nat.lt_succ_iff]

theorem setLength_spec {r : ArrayRef} (live : Lives h (.array r)) (v : Value) :
    (∃ f, setLength h r v = .error f ∧ Refused h v (.array r) "length" f) ∨
      ∃ e n, setLength h r v = .ok e ∧
        Becomes h v (.array r) "length" (e.apply h) (some (.number (Number.ofNat n))) := by
  unfold setLength
  cases hn : Number.toNat? (maxArrayLength + 1) (v.toNumber h) with
  | none =>
    refine .inl ⟨_, rfl, .length fun n hm value => ?_⟩
    rw [length?_eq_some_iff.2 ⟨value, hm⟩] at hn
    cases hn
  | some n =>
    obtain ⟨value, hm⟩ := length?_eq_some_iff.1 hn
    refine .inr ⟨_, n, rfl, .length hm value (h.modifyArray_sameBut r _) ?_⟩
    rw [Edit.apply, Heap.items_modifyArray_self live]
    exact resized_resized _ n

theorem setMember_spec (live : Lives h owner) (key : String) (v : Value) :
    (∃ f, setMember h owner key v = .error f ∧ Refused h v owner key f) ∨
      ∃ e found, setMember h owner key v = .ok e ∧ Becomes h v owner key (e.apply h) found := by
  unfold setMember
  split
  · exact .inl ⟨_, rfl, .owner ‹_›⟩
  · rename_i present
    split
    · rename_i r
      refine .inr ⟨_, _, rfl, .property (h.setField_sameBut r key v) ?_⟩
      rw [Edit.apply, Heap.fields_setField_self live]
      exact Fields.put_updated key v _
    · rename_i r
      split
      · rename_i hk
        subst hk
        rcases setLength_spec live v with refused | ⟨e, n, he, set⟩
        · exact .inl refused
        · exact .inr ⟨e, _, he, set⟩
      · rename_i length
        split
        · rename_i i hs
          obtain ⟨rfl, hi⟩ := spelledIndex?_eq_some_iff.1 hs
          rcases setElement_spec live hi v with refused | ⟨e, he, set⟩
          · exact .inl refused
          · exact .inr ⟨e, _, he, set⟩
        · rename_i hs
          refine .inr ⟨_, _, rfl, .noElement length fun i hi same => ?_⟩
          rw [spelledIndex?_eq_some_iff.2 ⟨same, hi⟩] at hs
          cases hs
    · rename_i array object
      exact .inr ⟨_, _, rfl, .ignored (by simpa using present) object array⟩

theorem setMember_element {r : ArrayRef} {i : Nat} (hs : spelledIndex? key = some i) :
    setMember h (.array r) key v = setElement r i v := by
  have length : key ≠ "length" := ne_of_spelledIndex? hs (by decide)
  simp only [setMember, Value.isNullish, Bool.false_eq_true, if_false, length, hs]

theorem setMember_of_refused {f : Failure} (refused : Refused h v owner key f) :
    setMember h owner key v = .error f := by
  cases refused with
  | owner nullish => exact if_pos nullish
  | @element r i large hi =>
    rw [setMember_element (spelledIndex?_eq_some_iff.2 ⟨rfl, hi⟩)]
    exact if_pos large
  | @length r none =>
    have whole : Number.toNat? (maxArrayLength + 1) (v.toNumber h) = Option.none := by
      refine Option.eq_none_iff_forall_ne_some.2 fun n hn => ?_
      obtain ⟨value, hm⟩ := length?_eq_some_iff.1 hn
      exact none n hm value
    show setLength h r v = _
    rw [setLength, whole]

theorem Becomes.readMember {w : Value} (set : Becomes h v owner key h' (some w))
    (name : ∀ i < maxArrayLength, key ≠ toString i) : readMember h' owner key = .ok w := by
  cases set with
  | @property r _ _ _ updated =>
    show Except.ok (((h'.fields r).get? key).getD .undefined) = _
    rw [Fields.get?, updated.lookup, Option.getD_some]
  | element hi => exact absurd rfl (name _ hi)
  | @length r n _ _ _ _ resized =>
    show Except.ok (Value.number (Number.ofNat (h'.items r).size)) = _
    rw [resized.size]

theorem Becomes.readIndex {w index : Value}
    (set : Becomes h v owner (index.display h) h' (some w))
    (plain : (∃ x, index = .number x) ∨ ∃ t, index = .text t) :
    readIndex h' owner index = .ok w := by
  have same : index.display h = index.display h' := by
    rcases plain with ⟨x, rfl⟩ | ⟨t, rfl⟩ <;> rfl
  have noArray : ¬ ∃ r, index = .array r := by
    rcases plain with ⟨x, rfl⟩ | ⟨t, rfl⟩ <;> nofun
  rw [same] at set
  generalize hk : index.display h' = key at set
  cases set with
  | @property r _ _ _ updated =>
    show Except.ok (((h'.fields r).get? (index.display h')).getD .undefined) = _
    rw [hk, Fields.get?, updated.lookup, Option.getD_some]
  | @element r i _ hi _ set =>
    have spelled : spelledIndex? (index.display h') = some i :=
      spelledIndex?_eq_some_iff.2 ⟨hk, Nat.lt_trans hi (by decide)⟩
    rw [(HasElements.array r).readIndex]
    cases he : index.elementIndex? with
    | none =>
      rcases Value.array_or_beyond spelled he with array | beyond
      · exact absurd array noArray
      · exact absurd (Nat.lt_trans hi (by decide)) (Nat.not_lt.2 beyond)
    | some j =>
      obtain rfl : i = j :=
        Option.some.inj (spelled.symm.trans (Value.spelledIndex?_of_elementIndex? he))
      show Except.ok ((h'.items r)[i]?.getD .undefined) = _
      rw [set.element, Option.getD_some]
  | @length r n _ _ _ _ resized =>
    have none : spelledIndex? (index.display h') = Option.none := hk ▸ by decide
    rw [(HasElements.array r).readIndex, Value.elementIndex?_eq_none none, hk]
    show Except.ok (Value.number (Number.ofNat (h'.items r).size)) = _
    rw [resized.size]

end Properties

def OwnerLives (h : Heap) : Place → Prop
  | .variable _ => True
  | .member owner _ => Lives h owner
  | .index owner _ => Lives h owner

inductive Refuses (h : Heap) (v : Value) : Place → Failure → Prop
  | member {owner : Value} {key : String} {f : Failure} : Refused h v owner key f →
      Refuses h v (.member owner key) f
  | index {owner index : Value} {f : Failure} : Refused h v owner (index.display h) f →
      Refuses h v (.index owner index) f

/-- Reading the place finds what writing it has changed: a member name spells no element, and an
index is a number or a text. -/
def Plain : Place → Prop
  | .variable _ => True
  | .member _ key => ∀ i < maxArrayLength, key ≠ toString i
  | .index _ i => (∃ x, i = .number x) ∨ ∃ t, i = .text t

end Place

namespace Action

variable {σ : Type}

inductive Writes (s : State σ) (v : Value) : Place → State σ → Option Value → Prop
  | variable {name : String} {b : Bindings} : b[name]? = some v →
      (∀ other ≠ name, b[other]? = s.bindings[other]?) →
      Writes s v (.variable name) { s with bindings := b } (some v)
  | member {owner : Value} {key : String} {h : Heap} {found : Option Value} :
      Place.Becomes s.heap v owner key h found →
      Writes s v (.member owner key) { s with heap := h } found
  | index {owner index : Value} {h : Heap} {found : Option Value} :
      Place.Becomes s.heap v owner (index.display s.heap) h found →
      Writes s v (.index owner index) { s with heap := h } found

theorem edit_setMember {s : State σ} {owner : Value} (live : Place.Lives s.heap owner)
    (key : String) (v : Value) (line : Nat) :
    (∃ f, edit line (Place.setMember · owner key v) s =
        (.error (.interrupt (.error ⟨line, f⟩)), s) ∧
      Place.Refused s.heap v owner key f) ∨
    ∃ h found, edit line (Place.setMember · owner key v) s = (.ok (), { s with heap := h }) ∧
      (∀ f, ¬ Place.Refused s.heap v owner key f) ∧ Place.Becomes s.heap v owner key h found := by
  rcases Place.setMember_spec live key v with ⟨f, hf, refused⟩ | ⟨e, found, he, set⟩
  · exact .inl ⟨f, by rw [edit, hf]; rfl, refused⟩
  · refine .inr ⟨_, found, by rw [edit, he], fun f refused => ?_, set⟩
    rw [Place.setMember_of_refused refused] at he
    cases he

theorem writePlace_local (s : State σ) (p : Place) (v : Value) (line : Nat)
    (lives : p.OwnerLives s.heap) :
    (∃ f, writePlace p v line s = (.error (.interrupt (.error ⟨line, f⟩)), s) ∧
      p.Refuses s.heap v f) ∨
    ∃ t found, writePlace p v line s = (.ok (), t) ∧ (∀ f, ¬ p.Refuses s.heap v f) ∧
      Writes s v p t found ∧
      (p.Plain → ∀ w, found = some w → readPlace p line t = (.ok w, t)) := by
  cases p with
  | «variable» name =>
    have bound : (s.bindings.insert name v)[name]? = some v := by simp
    have others (other : String) (ne : other ≠ name) :
        (s.bindings.insert name v)[other]? = s.bindings[other]? := by
      rw [Std.HashMap.getElem?_insert, beq_false_of_ne ne.symm]
      rfl
    refine .inr ⟨_, _, rfl, nofun, .variable bound others, fun _ w hw => ?_⟩
    cases hw
    simp [readPlace, variable_]
  | member owner key =>
    rcases edit_setMember lives key v line with ⟨f, he, refused⟩ | ⟨h, found, he, fine, set⟩
    · exact .inl ⟨f, he, .member refused⟩
    · refine .inr ⟨_, found, he, fun f => ?_, .member set, fun plain w hw => ?_⟩
      · rintro ⟨refused⟩
        exact fine f refused
      · subst hw
        rw [readPlace, set.readMember plain]
        rfl
  | index owner index =>
    have text : writePlace (.index owner index) v line s = edit line
        (Place.setMember · owner (index.display s.heap) v) s := by
      simp only [writePlace, edit]
      rw [Place.setIndex_eq_text, Place.setIndex_text]
    rw [text]
    rcases edit_setMember lives (index.display s.heap) v line with
      ⟨f, he, refused⟩ | ⟨h, found, he, fine, set⟩
    · exact .inl ⟨f, he, .index refused⟩
    · refine .inr ⟨_, found, he, fun f => ?_, .index set, fun plain w hw => ?_⟩
      · rintro (_ | ⟨refused⟩)
        exact fine f refused
      · subst hw
        rw [readPlace, set.readIndex plain]
        rfl

theorem written_behind_end :
    Place.Lives nested.heap (.array ⟨0⟩) ∧
    ∃ t, writePlace (.index (.array ⟨0⟩) (.text "3")) (.bool true) 1 nested = (.ok (), t) ∧
      Writes nested (.bool true) (.index (.array ⟨0⟩) (.text "3")) t (some (.bool true)) ∧
      readPlace (.index (.array ⟨0⟩) (.text "3")) 1 t = (.ok (.bool true), t) := by
  have lives : Place.Lives nested.heap (.array ⟨0⟩) := by
    show 0 < 3
    decide
  refine ⟨lives, ?_⟩
  rcases writePlace_local nested (.index (.array ⟨0⟩) (.text "3")) (.bool true) 1 lives with
    ⟨f, he, -⟩ | ⟨t, found, he, -, writes, read⟩
  · cases congrArg Prod.fst he
  · obtain rfl : found = some (.bool true) := by
      cases writes with
      | index set =>
        generalize hk : (Value.text "3").display nested.heap = key at set
        cases set with
        | element => rfl
        | noElement _ none => exact absurd hk.symm (none 3 (by decide))
        | length => exact absurd hk (by decide)
        | ignored _ array => exact absurd rfl (array ⟨0⟩)
    exact ⟨t, he, writes, read (.inr ⟨"3", rfl⟩) _ rfl⟩

end Action

end CanvasScript
