import CanvasScript.Proofs.Identity
import Mathlib

namespace CanvasScript.Number

theorem beq_comm (x y : Float) : (x == y) = (y == x) := by
  rw [Bool.eq_iff_iff, Float.beq_iff_ne_nan_and_eq, Float.beq_iff_ne_nan_and_eq]
  constructor <;> rintro ⟨hx, hy, rfl | ⟨rfl, rfl⟩ | ⟨rfl, rfl⟩⟩ <;> simp [hx, hy]

theorem beq_trans {x y z : Float} (hxy : (x == y) = true) (hyz : (y == z) = true) :
    (x == z) = true := by
  rw [Float.beq_iff_ne_nan_and_eq] at *
  grind

theorem beq_of_isNaN {x : Float} (h : x.isNaN = true) (y : Float) : (x == y) = false := by
  rw [Float.isNaN_eq_decide_eq_nan, decide_eq_true_iff] at h
  rw [h, Float.nan_beq_eq_false]

end CanvasScript.Number

namespace CanvasScript

theorem Function.same_comm (f g : Function) : f.same g = g.same f := by
  rw [Function.same, Function.same, decide_eq_decide.2 (eq_comm (a := f.unit)),
    decide_eq_decide.2 (eq_comm (a := f.decl.position))]

theorem Function.same_trans {f g k : Function} (hfg : f.same g = true) (hgk : g.same k = true) :
    f.same k = true := by
  simp only [Function.same, Bool.and_eq_true, decide_eq_true_iff] at *
  exact ⟨hfg.1.trans hgk.1, hfg.2.trans hgk.2⟩

namespace Value

def isNaN : Value → Bool
  | number x => x.isNaN
  | _ => false

theorem strictEq_comm (a b : Value) : strictEq a b = strictEq b a := by
  induction a generalizing b with
  | number x =>
    cases b with
    | number y => exact Number.beq_comm x y
    | _ => rfl
  | function f =>
    cases b with
    | function g => exact Function.same_comm f g
    | _ => rfl
  | method v m ih =>
    cases b with
    | method w n => rw [strictEq, strictEq, ih w, decide_eq_decide.2 eq_comm]
    | _ => rfl
  | _ => cases b <;> simp [strictEq, eq_comm]

theorem strictEq_trans {a b c : Value} (hab : strictEq a b = true) (hbc : strictEq b c = true) :
    strictEq a c = true := by
  induction a generalizing b c with
  | number x =>
    cases b with
    | number y =>
      cases c with
      | number z => exact Number.beq_trans hab hbc
      | _ => cases hbc
    | _ => cases hab
  | function f =>
    cases b with
    | function g =>
      cases c with
      | function k => exact Function.same_trans hab hbc
      | _ => cases hbc
    | _ => cases hab
  | method v m ih =>
    cases b with
    | method w n =>
      cases c with
      | method u k =>
        simp only [strictEq, Bool.and_eq_true, decide_eq_true_iff] at hab hbc ⊢
        exact ⟨hab.1.trans hbc.1, ih hab.2 hbc.2⟩
      | _ => cases hbc
    | _ => cases hab
  | _ => cases b <;> first | (cases hab <;> exact hbc) | simp_all [strictEq]

theorem strictEq_of_isNaN {a : Value} (h : a.isNaN = true) (b : Value) : strictEq a b = false := by
  cases a with
  | number x =>
    cases b with
    | number y => exact Number.beq_of_isNaN h y
    | _ => rfl
  | _ => cases h

theorem sameValueZero_eq (a b : Value) :
    sameValueZero a b = (strictEq a b || (a.isNaN && b.isNaN)) := by
  cases a with
  | number x =>
    cases b with
    | number y => exact Bool.or_comm _ _
    | _ => simp [sameValueZero, isNaN]
  | _ => simp [sameValueZero, isNaN]

theorem isReference_eq (a : Value) : a.isReference = a.referenceKind?.isSome := by
  cases a <;> rfl

theorem sameReference?_comm (a b : Value) : sameReference? a b = sameReference? b a := by
  have turned {a b : Value} (h : a.isReference = true ∧ a.referenceKind? = b.referenceKind?) :
      b.isReference = true ∧ b.referenceKind? = a.referenceKind? := by
    rw [isReference_eq] at h ⊢
    exact ⟨h.2 ▸ h.1, h.2.symm⟩
  have pair : (a.isReference = true ∧ a.referenceKind? = b.referenceKind?) ↔
      b.isReference = true ∧ b.referenceKind? = a.referenceKind? := ⟨turned, turned⟩
  rw [sameReference?_eq, sameReference?_eq, strictEq_comm]
  simp only [pair]

theorem Comparable.eq_comm (a b : Comparable) : a.eq b = b.eq a := by
  cases a with
  | number x =>
    cases b with
    | number y => exact Number.beq_comm x y
    | text t => exact Number.beq_comm x _
  | text s =>
    cases b with
    | number y => exact Number.beq_comm _ y
    | text t => exact decide_eq_decide.2 Eq.comm

theorem ofNat_bool_beq (p q : Bool) : ((if p then Number.ofNat 1 else Number.ofNat 0) ==
    if q then Number.ofNat 1 else Number.ofNat 0) = decide (p = q) := by
  cases p <;> cases q <;> decide

def conversions (v : Value) : Nat :=
  match v with
  | bool _ => 1
  | v => if v.isReference then 1 else 0

theorem conversions_toPrimitive_le (h : Heap) (v : Value) :
    (toPrimitive h v).conversions ≤ v.conversions := by
  cases v <;> simp [toPrimitive, isReference, conversions]

theorem conversions_toPrimitive_lt (h : Heap) {v : Value} (hv : v.isReference = true) :
    (toPrimitive h v).conversions < v.conversions := by
  cases v <;> simp_all [toPrimitive, isReference, conversions]

theorem conversions_pair_lt (h : Heap) {a b : Value}
    (hr : a.isReference = true ∨ b.isReference = true) :
    (toPrimitive h a).conversions + (toPrimitive h b).conversions <
      a.conversions + b.conversions := by
  have ha := conversions_toPrimitive_le h a
  have hb := conversions_toPrimitive_le h b
  rcases hr with hr | hr
  · have := conversions_toPrimitive_lt h hr
    omega
  · have := conversions_toPrimitive_lt h hr
    omega

/-- Equality with conversion by the kinds of the two values: the first line that they fit counts. A
bool on the left becomes a number before one on the right does. -/
def convertingEq (h : Heap) (a b : Value) : Bool :=
  if a.isNullish || b.isNullish then a.isNullish && b.isNullish
  else
    match a, b with
    | number x, number y => strictEq (number x) (number y)
    | text s, text t => strictEq (text s) (text t)
    | bool p, bool q => strictEq (bool p) (bool q)
    | number x, text t => x == toNumber h (text t)
    | text s, number y => toNumber h (text s) == y
    | bool p, b => convertingEq h (number (toNumber h (bool p))) b
    | a, bool q => convertingEq h a (number (toNumber h (bool q)))
    | a, b =>
      match sameReference? a b with
      | some same => same
      | none =>
        match toPrimitive h a, toPrimitive h b with
        | text _, text _ | text _, number _ | number _, text _ | number _, number _ =>
          -- the lines above leave no other pair: the condition is there for the recursion to end
          if _hr : a.isReference = true ∨ b.isReference = true then
            convertingEq h (toPrimitive h a) (toPrimitive h b)
          else false
        | _, _ => false
termination_by a.conversions + b.conversions
decreasing_by
  · simp [conversions, isReference]
  · simp [conversions, isReference]
  all_goals exact conversions_pair_lt h _hr

theorem looseEq_eq_convertingEq (h : Heap) (a b : Value) :
    looseEq h a b = convertingEq h a b := by
  cases a <;> cases b <;>
    simp [looseEq, convertingEq, isNullish, sameReference?, isReference, comparable, Comparable.eq,
      toPrimitive, strictEq, toNumber, ofNat_bool_beq]

theorem looseEq_comm (h : Heap) (a b : Value) : looseEq h a b = looseEq h b a := by
  rw [looseEq, looseEq, sameReference?_comm, Comparable.eq_comm, Bool.or_comm, Bool.and_comm]

theorem convertingEq_comm (h : Heap) (a b : Value) : convertingEq h a b = convertingEq h b a := by
  rw [← looseEq_eq_convertingEq, looseEq_comm, looseEq_eq_convertingEq]

theorem looseEq_of_strictEq (h : Heap) {a b : Value} (hab : strictEq a b = true) :
    looseEq h a b = true := by
  by_cases ha : a.isReference = true
  · have kind : a.referenceKind? = b.referenceKind? :=
      ((same_iff_strictEq ha).2 hab).referenceKind?_eq
    have hb : b.isReference = true := by
      rw [isReference_eq] at ha ⊢
      exact kind ▸ ha
    rw [looseEq_of_isReference ha hb, if_pos kind, hab]
  · cases a with
    | number x =>
      cases b with
      | number y => exact hab
      | _ => cases hab
    | text s =>
      cases b with
      | text t => exact hab
      | _ => cases hab
    | bool p =>
      cases b with
      | bool q =>
        exact (ofNat_bool_beq p q).trans hab
      | _ => cases hab
    | null => cases b <;> first | rfl | cases hab
    | undefined => cases b <;> first | rfl | cases hab
    | _ => exact absurd rfl ha

theorem equalities_nested (h : Heap) :
    (∀ a b, looseEq h a b = looseEq h b a) ∧
    (∀ a b, strictEq a b = true → looseEq h a b = true) ∧
    (∀ a b, strictEq a b = strictEq b a) ∧
    (∀ a b c, strictEq a b = true → strictEq b c = true → strictEq a c = true) ∧
    (∀ a b, sameValueZero a b = (strictEq a b || (a.isNaN && b.isNaN))) ∧
    ∀ a b, a.isNaN = true → b.isNaN = true →
      strictEq a b = false ∧ sameValueZero a b = true := by
  refine ⟨looseEq_comm h, fun a b => looseEq_of_strictEq h, strictEq_comm,
    fun a b c => strictEq_trans, sameValueZero_eq, fun a b ha hb => ?_⟩
  have apart : strictEq a b = false := strictEq_of_isNaN ha b
  exact ⟨apart, by rw [sameValueZero_eq, apart, ha, hb]; rfl⟩

end Value

end CanvasScript
