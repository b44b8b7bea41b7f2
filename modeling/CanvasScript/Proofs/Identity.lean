import CanvasScript.Value.Operators

namespace CanvasScript.Value

inductive ReferenceKind where
  | array | object | function | native | method
deriving DecidableEq, Repr

def referenceKind? : Value → Option ReferenceKind
  | array _ => some .array
  | object _ => some .object
  | function _ => some .function
  | native _ => some .native
  | method _ _ => some .method
  | _ => none

/-- One array or object of the heap, one declaration of one program, one host function, or one
method of receivers that are equal without conversion. -/
inductive Same : Value → Value → Prop
  | array (r : ArrayRef) : Same (array r) (array r)
  | object (r : ObjectRef) : Same (object r) (object r)
  | function {f g : Function} : f.unit = g.unit → f.decl.position = g.decl.position →
      Same (function f) (function g)
  | native (n : Native) : Same (native n) (native n)
  | method {v w : Value} (m : Method) : v.strictEq w = true → Same (method v m) (method w m)

theorem Same.referenceKind?_eq {a b : Value} (h : Same a b) :
    a.referenceKind? = b.referenceKind? := by
  cases h <;> rfl

theorem same_iff_strictEq {a b : Value} (ha : a.isReference = true) :
    Same a b ↔ a.strictEq b = true := by
  constructor
  · intro h
    cases h with
    | function hu hp => simp [strictEq, Function.same, hu, hp]
    | method m hv => simp [strictEq, hv]
    | _ => simp [strictEq]
  · intro h
    unfold strictEq at h
    split at h
    case h_6 => exact of_decide_eq_true h ▸ .array _
    case h_7 => exact of_decide_eq_true h ▸ .object _
    case h_8 =>
      rw [Function.same, Bool.and_eq_true, decide_eq_true_iff, decide_eq_true_iff] at h
      exact .function h.1 h.2
    case h_9 => exact of_decide_eq_true h ▸ .native _
    case h_10 =>
      rw [Bool.and_eq_true, decide_eq_true_iff] at h
      exact h.1 ▸ .method _ h.2
    all_goals simp_all [isReference]

theorem sameReference?_eq (a b : Value) : sameReference? a b =
    if a.isReference = true ∧ a.referenceKind? = b.referenceKind? then some (a.strictEq b)
    else none := by
  cases a <;> cases b <;> rfl

theorem looseEq_of_isReference {h : Heap} {a b : Value} (ha : a.isReference = true)
    (hb : b.isReference = true) : looseEq h a b =
      if a.referenceKind? = b.referenceKind? then a.strictEq b
      else decide (a.display h = b.display h) := by
  have notNullish {v : Value} (hv : v.isReference = true) : v.isNullish = false := by
    cases v <;> first | rfl | cases hv
  have text {v : Value} (hv : v.isReference = true) : comparable h v = .text (v.display h) := by
    cases v <;> first | rfl | cases hv
  rw [looseEq, notNullish ha, notNullish hb, sameReference?_eq, text ha, text hb]
  by_cases hk : a.referenceKind? = b.referenceKind? <;> simp [ha, hk, Comparable.eq]

theorem looseEq_references (h : Heap) (a b : Value) (ha : a.isReference = true)
    (hb : b.isReference = true) :
    (binary h .eq a b = .bool true ↔ looseEq h a b = true) ∧
    (looseEq h a b = true ↔
      Same a b ∨ a.referenceKind? ≠ b.referenceKind? ∧ a.display h = b.display h) ∧
    ((looseEq h a b = true ↔ Same a b) ↔
      a.referenceKind? = b.referenceKind? ∨ a.display h ≠ b.display h) := by
  have operator : binary h .eq a b = .bool true ↔ looseEq h a b = true := by
    rw [binary, bool.injEq]
  have kind : Same a b → a.referenceKind? = b.referenceKind? := Same.referenceKind?_eq
  have equal := looseEq_of_isReference (h := h) ha hb
  have same := same_iff_strictEq (b := b) ha
  refine ⟨operator, ?_⟩
  by_cases hk : a.referenceKind? = b.referenceKind?
  · rw [if_pos hk] at equal
    simp [equal, same, hk]
  · rw [if_neg hk] at equal
    have apart : ¬ Same a b := fun hs => hk (kind hs)
    simp [equal, apart, hk]

def boxed : Heap := ⟨#[#[.object ⟨0⟩]], #[.empty]⟩

theorem box_compared_to_native :
    (array ⟨0⟩).isReference = true ∧ (native (.builtin .log)).isReference = true ∧
    (looseEq boxed (array ⟨0⟩) (native (.builtin .log)) = true ↔
      Same (array ⟨0⟩) (native (.builtin .log))) ∧
    ¬ looseEq boxed (array ⟨0⟩) (native (.builtin .log)) = true := by
  have texts : (array ⟨0⟩).display boxed ≠ (native (.builtin .log)).display boxed := by decide
  have identity := (looseEq_references boxed (array ⟨0⟩) (native (.builtin .log)) rfl rfl).2.2.2
    (.inr texts)
  exact ⟨rfl, rfl, identity, fun h => nomatch identity.1 h⟩

theorem box_eq_content :
    ¬ ∀ (h : Heap) (a b : Value), a.isReference = true → b.isReference = true →
      (looseEq h a b = true ↔ Same a b) := by
  intro claimed
  have texts : (array ⟨0⟩).display boxed = (object ⟨0⟩).display boxed := by decide
  have equal : looseEq boxed (array ⟨0⟩) (object ⟨0⟩) = true := by
    rw [looseEq_of_isReference rfl rfl, if_neg (by decide), decide_eq_true texts]
  exact nomatch (claimed boxed (array ⟨0⟩) (object ⟨0⟩) rfl rfl).1 equal

end CanvasScript.Value
