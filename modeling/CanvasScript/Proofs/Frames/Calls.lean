import CanvasScript.Proofs.Contract.Runs
import CanvasScript.Proofs.Declarations
import CanvasScript.Proofs.Frames.Mirror

namespace CanvasScript

def Target.names : Target → List String
  | .variable name => [name]
  | _ => []

def Expr.names : Expr → List String
  | .variable name _ => [name]
  | .assign target _ _ => target.names
  | .compound _ target _ _ => target.names
  | .update _ name _ => [name]
  | _ => []

inductive Expr.Mentions (name : String) : Expr → Prop
  | root {e : Expr} : name ∈ e.names → Mentions name e
  | part {e d : Expr} : d ∈ e.parts → Mentions name d → Mentions name e
  | marker {s source : String} {p : Position} {e : Expr} : .expr source ∈ Marker.segments s →
      Marker.parse source p = .ok e → Mentions name e → Mentions name (.literal (.text s) p)

theorem Expr.mentions_iff {e : Expr} (he : ∀ s p, e ≠ .literal (.text s) p) (name : String) :
    e.Mentions name ↔ name ∈ e.names ∨ ∃ d ∈ e.parts, d.Mentions name := by
  constructor
  · rintro (h | ⟨hd, h⟩ | _)
    · exact .inl h
    · exact .inr ⟨_, hd, h⟩
    · exact absurd rfl (he _ _)
  · rintro (h | ⟨d, hd, h⟩)
    · exact .root h
    · exact .part hd h

def Stmt.names : Stmt → List String
  | .function name _ _ _ => [name]
  | .for_ counter _ _ _ => [counter]
  | _ => []

inductive Stmt.Mentions (name : String) : Stmt → Prop
  | root {s : Stmt} : name ∈ s.names → Mentions name s
  | expr {s : Stmt} {e : Expr} : e ∈ s.exprs → e.Mentions name → Mentions name s
  | inner {s t : Stmt} : t ∈ s.inner → Mentions name t → Mentions name s

theorem Stmt.mentions_iff (s : Stmt) (name : String) :
    s.Mentions name ↔ name ∈ s.names ∨ (∃ e ∈ s.exprs, e.Mentions name) ∨
      ∃ t ∈ s.inner, t.Mentions name := by
  constructor
  · rintro (h | ⟨he, h⟩ | ⟨ht, h⟩)
    · exact .inl h
    · exact .inr (.inl ⟨_, he, h⟩)
    · exact .inr (.inr ⟨_, ht, h⟩)
  · rintro (h | ⟨e, he, h⟩ | ⟨t, ht, h⟩)
    · exact .root h
    · exact .expr he h
    · exact .inner ht h

def IsParameter (program : List Stmt) (name : String) : Prop :=
  ∃ t ∈ program, ∃ d, t.Declares d ∧ name ∈ d.params

/-- Each function's parameters are distinct, and code that mentions a parameter of any function is
in the body of a function that has it as its own. -/
structure LocalNames (program : List Stmt) : Prop where
  distinct : ∀ t ∈ program, ∀ d, t.Declares d → d.params.Nodup
  top : ∀ t ∈ program, ∀ name, t.Mentions name → ¬ IsParameter program name
  body : ∀ t ∈ program, ∀ d, t.Declares d → ∀ u ∈ d.body, ∀ name, u.Mentions name →
    IsParameter program name → name ∈ d.params

variable {σ : Type} {bound : String → Prop} {outer : String → Option Value} {V : Value → Prop}

theorem Framed.parameters_isSome (ps : List String) (args : List Value) (name : String) :
    (parameters ps args)[name]?.isSome ↔ name ∈ ps := by
  induction ps generalizing args with
  | nil => simp [parameters]
  | cons p ps ih =>
    rw [parameters, Std.HashMap.getElem?_insert]
    by_cases h : p = name
    · simp [h]
    · simp only [beq_iff_eq, h, if_false, ih, List.mem_cons, Ne.symm h, false_or]

theorem Evaluator.bindParams_parameters {ps : List String} (hn : ps.Nodup) (args : List Value)
    (bindings : Bindings) (saved : List (String × Value)) (name : String) :
    (bindParams ps args bindings saved).1[name]? =
      (Framed.parameters ps args)[name]?.or bindings[name]? := by
  induction ps generalizing args bindings saved with
  | nil => simp [bindParams, Framed.parameters]
  | cons p ps ih =>
    obtain ⟨hp, hn⟩ := List.nodup_cons.1 hn
    rw [bindParams_cons, ih hn, Framed.parameters]
    simp only [Std.HashMap.getElem?_insert]
    by_cases h : p = name
    · subst h
      have h0 : (Framed.parameters ps args.tail)[p]? = none := by
        rw [← Option.not_isSome_iff_eq_none, Framed.parameters_isSome]
        exact hp
      simp [h0]
    · simp [h]

namespace Scope

def ofCall (params : List String) (hp : ∀ p ∈ params, bound p) (bindings : Bindings) :
    Scope bound where
  own name := name ∈ params
  pending name := bindings[name]?
  own_bound := hp

namespace Mirror

variable {c : Scope bound} {s : State σ} {t : Framed σ} {params : List String}

theorem enter (hm : c.Mirror outer s t) (hn : params.Nodup) (hp : ∀ p ∈ params, bound p)
    (args : List Value) :
    (ofCall params hp s.bindings).Mirror outer
      { s with
        bindings := (Evaluator.bindParams params args s.bindings []).1, depth := s.depth + 1 }
      ⟨Framed.parameters params args, { t.state with depth := t.state.depth + 1 }⟩ := by
  have hg := Evaluator.bindParams_parameters hn args s.bindings []
  have none_of (name : String) (h : name ∉ params) :
      (Framed.parameters params args)[name]? = none := by
    rw [← Option.not_isSome_iff_eq_none, Framed.parameters_isSome]
    exact h
  refine ⟨?_, Framed.parameters_isSome params args, ?_, ?_, ?_, hm.outer⟩
  · exact congrArg (fun u : State σ => { u with depth := u.depth + 1 }) hm.rest
  · intro name v hv
    simp [hg, hv]
  · intro name hb
    simp only [hg, none_of name fun h => hb (hp name h), Option.none_or]
    exact hm.global name hb
  · intro name _ ho
    simp only [hg, none_of name ho, Option.none_or]
    rfl

theorem leave (hm : c.Mirror outer s t) (hn : params.Nodup) (hp : ∀ p ∈ params, bound p)
    (args : List Value) {s' : State σ} {t' : Framed σ}
    (hm' : (ofCall params hp s.bindings).Mirror outer s' t') :
    c.Mirror outer
      { s' with
        bindings := Evaluator.restoreParams params
          (Evaluator.bindParams params args s.bindings []).2 s'.bindings
        depth := s'.depth - 1 }
      ⟨t.frame, { t'.state with depth := t'.state.depth - 1 }⟩ := by
  have hr (name : String) : (Evaluator.restoreParams params
      (Evaluator.bindParams params args s.bindings []).2 s'.bindings)[name]? =
      if name ∈ params then s.bindings[name]? else s'.bindings[name]? := by
    have hs : Evaluator.shadowedArg name params args = none :=
      (Evaluator.shadowedArg_eq_none_iff name params args).2 (List.nodup_iff_count.1 hn name)
    rw [Evaluator.restoreParams_bindParams, hs, Option.none_or]
  -- parameters are restored, and the body found those of other functions pending and left them so
  have hb (name : String) (hb : bound name) : (Evaluator.restoreParams params
      (Evaluator.bindParams params args s.bindings []).2 s'.bindings)[name]? =
      s.bindings[name]? := by
    rw [hr]
    split
    · rfl
    · rename_i ho
      exact hm'.pending name hb ho
  refine ⟨?_, hm.framed, ?_, ?_, ?_, hm'.outer⟩
  · exact congrArg (fun u : State σ => { u with depth := u.depth - 1 }) hm'.rest
  · intro name v hv
    have ho : c.own name := by
      rw [← hm.framed, hv]
      rfl
    rw [hb name (c.own_bound name ho)]
    exact hm.inner name v hv
  · intro name hg
    rw [hr, if_neg fun h => hg (hp name h)]
    exact hm'.global name hg
  · intro name hg ho
    rw [hb name hg]
    exact hm.pending name hg ho

end Mirror

theorem Mirrors.callFunction (hV : Value.OnlyFunctions V) {f : Function}
    (hn : f.decl.params.Nodup) (hp : ∀ p ∈ f.decl.params, bound p) {args : List Value}
    (ha : ∀ v ∈ args, V v) (line : Nat) {body : Action σ Unit} {body' : Local σ Unit}
    (h : ∀ bindings, (ofCall f.decl.params hp bindings).Mirrors outer V body body')
    (c : Scope bound) :
    c.Mirrors outer V (Evaluator.callFunction f args line body)
      (Local.callFunction f args line body') := by
  intro s t hs hm
  have depth : t.state.depth = s.depth := (congrArg State.depth hm.rest).symm
  have most : t.state.maxCallDepth = s.maxCallDepth := (congrArg State.maxCallDepth hm.rest).symm
  unfold Local.callFunction
  rw [most, depth]
  by_cases hd : s.maxCallDepth ≤ s.depth
  · rw [Evaluator.callFunction_refused hd, if_pos hd]
    exact global (Action.Blind.interrupt _) s t hs hm
  · rw [Evaluator.callFunction_entered hd, if_neg hd]
    have entered := hm.enter hn hp args
    rw [depth] at entered
    have holds : { s with
        bindings := (Evaluator.bindParams f.decl.params args s.bindings []).1
        depth := s.depth + 1 }.Holds V fun _ => True :=
      ⟨Evaluator.bindParams_every hV ha _ hs.bindings [], hs.heap, hs.world⟩
    have hr := h s.bindings _ _ holds entered
    exact ⟨congrArg Evaluator.callResult hr.1, hm.leave hn hp args hr.2⟩

end Scope

end CanvasScript
