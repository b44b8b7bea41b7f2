import CanvasScript.Bindings
import CanvasScript.Evaluator

namespace CanvasScript.Evaluator

variable {σ : Type}

def shadowedArg (name : String) : List String → List Value → Option Value
  | [], _ => none
  | p :: ps, args =>
    (shadowedArg name ps args.tail).or
      (if p = name ∧ name ∈ ps then some (args.headD .undefined) else none)

theorem shadowedArg_eq_none_iff (name : String) (ps : List String) (args : List Value) :
    shadowedArg name ps args = none ↔ ps.count name ≤ 1 := by
  induction ps generalizing args with
  | nil => simp [shadowedArg]
  | cons p ps ih =>
    have hpos := List.count_pos_iff (a := name) (l := ps)
    rw [shadowedArg, Option.or_eq_none_iff, ih, List.count_cons]
    by_cases hp : p = name
    · simp only [hp, true_and, beq_self_eq_true, if_true]
      by_cases hm : name ∈ ps
      · simp only [hm, if_true, reduceCtorEq, and_false, false_iff]
        have := hpos.2 hm
        omega
      · have h0 : ps.count name = 0 := List.count_eq_zero_of_not_mem hm
        simp [hm, h0]
    · simp [hp]

def saving (bindings : Bindings) (p : String) (saved : List (String × Value)) :
    List (String × Value) :=
  (bindings[p]?.map fun v => (p, v)).toList ++ saved

theorem bindParams_cons (p : String) (ps : List String) (args : List Value) (bindings : Bindings)
    (saved : List (String × Value)) :
    bindParams (p :: ps) args bindings saved =
      bindParams ps args.tail (bindings.insert p (args.headD .undefined))
        (saving bindings p saved) := by
  rw [bindParams, saving]
  cases bindings[p]? <;> rfl

theorem lookup_saving (bindings : Bindings) (p name : String) (saved : List (String × Value)) :
    (saving bindings p saved).lookup name =
      if p = name then bindings[name]?.or (saved.lookup name) else saved.lookup name := by
  unfold saving
  by_cases h : p = name
  · subst h
    cases bindings[p]? <;> simp
  · have h' : (name == p) = false := by simp [Ne.symm h]
    cases bindings[p]? <;> simp [h, List.lookup_cons, h']

theorem bindParams_saved_of_not_mem {name : String} {ps : List String} (h : name ∉ ps)
    (args : List Value) (bindings : Bindings) (saved : List (String × Value)) :
    (bindParams ps args bindings saved).2.lookup name = saved.lookup name := by
  induction ps generalizing args bindings saved with
  | nil => rfl
  | cons p ps ih =>
    rw [List.mem_cons, not_or] at h
    rw [bindParams_cons, ih h.2, lookup_saving, if_neg (Ne.symm h.1)]

theorem bindParams_saved {name : String} {ps : List String} (h : name ∈ ps) (args : List Value)
    (bindings : Bindings) (saved : List (String × Value)) :
    (bindParams ps args bindings saved).2.lookup name =
      ((shadowedArg name ps args).or bindings[name]?).or (saved.lookup name) := by
  induction ps generalizing args bindings saved with
  | nil => simp at h
  | cons p ps ih =>
    rw [bindParams_cons, shadowedArg]
    -- saved last is what was bound right before the last occurrence: an argument, if there are two
    by_cases hm : name ∈ ps
    · rw [ih hm, lookup_saving, Std.HashMap.getElem?_insert]
      by_cases hp : p = name
      · cases shadowedArg name ps args.tail <;> simp [hp, hm]
      · simp [hp]
    · have hp : p = name := by
        rcases List.mem_cons.1 h with rfl | h
        · rfl
        · exact absurd h hm
      have hs : shadowedArg name ps args.tail = none := by
        rw [shadowedArg_eq_none_iff, List.count_eq_zero_of_not_mem hm]
        omega
      rw [bindParams_saved_of_not_mem hm, lookup_saving, if_pos hp, hs]
      simp [hm]

theorem restoreParams_get (name : String) (params : List String) (saved : List (String × Value))
    (bindings : Bindings) :
    (restoreParams params saved bindings)[name]? =
      if name ∈ params then saved.lookup name else bindings[name]? := by
  unfold restoreParams
  induction params generalizing bindings with
  | nil => simp
  | cons p ps ih =>
    rw [List.foldl_cons, ih]
    by_cases hm : name ∈ ps
    · simp [hm]
    · by_cases hp : p = name
      · subst hp
        cases hl : saved.lookup p <;> simp [hm]
      · cases hl : saved.lookup p <;>
          simp [hm, hp, Ne.symm hp, Std.HashMap.getElem?_insert, Std.HashMap.getElem?_erase]

theorem restoreParams_bindParams (name : String) (params : List String) (args : List Value)
    (before inside : Bindings) :
    (restoreParams params (bindParams params args before []).2 inside)[name]? =
      if name ∈ params then (shadowedArg name params args).or before[name]?
      else inside[name]? := by
  rw [restoreParams_get]
  by_cases h : name ∈ params
  · rw [if_pos h, if_pos h, bindParams_saved h]
    simp
  · rw [if_neg h, if_neg h]

theorem callFunction_refused {f : Function} {s : State σ} (h : s.maxCallDepth ≤ s.depth)
    (args : List Value) (line : Nat) (body : Action σ Unit) :
    callFunction f args line body s =
      (.error (.interrupt (.error ⟨line, .callDepth f.decl.name s.depth⟩)), s) := by
  rw [callFunction, if_pos h]
  rfl

theorem callFunction_entered {f : Function} {s : State σ} (h : ¬ s.maxCallDepth ≤ s.depth)
    (args : List Value) (line : Nat) (body : Action σ Unit) :
    callFunction f args line body s =
      let bound := bindParams f.decl.params args s.bindings []
      let r := body { s with bindings := bound.1, depth := s.depth + 1 }
      (callResult r.1, { r.2 with
        bindings := restoreParams f.decl.params bound.2 r.2.bindings
        depth := r.2.depth - 1 }) := by
  rw [callFunction, if_neg h]

theorem parameter_after_call (f : Function) (args : List Value) (line : Nat)
    (body : Action σ Unit) (s : State σ) (name : String) (h : name ∈ f.decl.params) :
    let after := (callFunction f args line body s).2.bindings[name]?
    let before := s.bindings[name]?
    after = (if s.maxCallDepth ≤ s.depth then before
      else (shadowedArg name f.decl.params args).or before) ∧
    (after = before ↔ s.maxCallDepth ≤ s.depth ∨ f.decl.params.count name = 1 ∨
      shadowedArg name f.decl.params args = before) := by
  intro after before
  have hc : 0 < f.decl.params.count name := List.count_pos_iff.2 h
  have hnone := shadowedArg_eq_none_iff name f.decl.params args
  by_cases hd : s.maxCallDepth ≤ s.depth
  · have ha : after = before := by
      show (callFunction f args line body s).2.bindings[name]? = before
      rw [callFunction_refused hd]
    simp [ha, hd]
  · have ha : after = (shadowedArg name f.decl.params args).or before := by
      show (callFunction f args line body s).2.bindings[name]? = _
      rw [callFunction_entered hd]
      simp only [restoreParams_bindParams, if_pos h, before]
    refine ⟨by rw [ha, if_neg hd], ?_⟩
    rw [ha]
    cases hs : shadowedArg name f.decl.params args with
    | none =>
      have h1 : f.decl.params.count name = 1 := by
        have := hnone.1 hs
        omega
      simp [h1]
    | some v =>
      have h1 : f.decl.params.count name ≠ 1 := by
        intro h1
        rw [hnone.2 (by omega)] at hs
        simp at hs
      simp [hd, h1]

def nullState : State Unit :=
  { State.initial (.plain (.silent Unit)) .standard () with
    bindings := (∅ : Bindings).insert "a" .null }

theorem nullState_open : ¬ nullState.maxCallDepth ≤ nullState.depth := by
  simp [nullState, State.initial, Settings.standard]

theorem parameters_after_break :
    ("b" ∈ ["a", "b", "a", "a"] ∧ "a" ∈ ["a", "b", "a", "a"]) ∧
    let s := (callFunction ⟨0, ⟨"f", ["a", "b", "a", "a"], [], .start⟩⟩
      [.bool true, .null, .bool false] 1 (do
        Action.setVariable "a" .undefined
        Action.setVariable "b" .undefined
        Action.interrupt .break_) nullState).2
    s.bindings["b"]? = none ∧ s.bindings["a"]? = some (.bool false) := by
  have ha := (parameter_after_call ⟨0, ⟨"f", ["a", "b", "a", "a"], [], .start⟩⟩
    [.bool true, .null, .bool false] 1 (do
      Action.setVariable "a" .undefined
      Action.setVariable "b" .undefined
      Action.interrupt .break_) nullState "a" (by decide)).1
  have hb := (parameter_after_call ⟨0, ⟨"f", ["a", "b", "a", "a"], [], .start⟩⟩
    [.bool true, .null, .bool false] 1 (do
      Action.setVariable "a" .undefined
      Action.setVariable "b" .undefined
      Action.interrupt .break_) nullState "b" (by decide)).1
  refine ⟨by decide, hb.trans ?_, ha.trans ?_⟩
  · rw [if_neg nullState_open]
    simp [shadowedArg, nullState]
  · rw [if_neg nullState_open]
    simp [shadowedArg]

theorem repeated_parameter_rebound :
    ¬ ∀ (f : Function) (args : List Value) (line : Nat) (body : Action Unit Unit)
      (s : State Unit) (name : String), name ∈ f.decl.params →
      (callFunction f args line body s).2.bindings[name]? = s.bindings[name]? := by
  intro h
  have h := h ⟨0, ⟨"f", ["a", "a"], [], .start⟩⟩ [.bool true, .bool false] 1 (pure ()) nullState "a"
    (by decide)
  rw [callFunction_entered nullState_open] at h
  simp [restoreParams_bindParams, shadowedArg, nullState] at h

end CanvasScript.Evaluator
