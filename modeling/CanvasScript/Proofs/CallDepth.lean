import CanvasScript.Host.Extras
import CanvasScript.Proofs.Evaluations.Progress

namespace CanvasScript

variable {σ : Type} {env : Embedding σ}

/-- The functions of the embedding program leave the number of calls in progress alone. They can set
the limit, but the count is kept where they cannot get at it. -/
def Embedding.KeepsDepth (env : Embedding σ) : Prop :=
  ∀ c ∈ env.customs, ∀ args (s : State σ), (c.call args s).2.depth = s.depth

structure CountsCalls (env : Embedding σ) (n : Nat) (j : Job) (s : State σ) : Prop where
  after : (j.run env n s).2.depth = s.depth
  during : ∀ {k m : Nat} {i : Job} {t : State σ}, During env n j s k m i t →
    t.depth = s.depth + k ∧ (i.run env m t).2.depth = s.depth + k
  entered_iff : ∀ {k m : Nat} {f : Function} {args : List Value} {line : Nat} {t : State σ},
    During env n j s k (m + 1) (.call (.function f) args line) t →
    ((∃ u, During env (m + 1) (.call (.function f) args line) t 1 m (.block f.unit f.decl.body) u) ↔
      s.depth + k < t.maxCallDepth)
  refused : ∀ {k m : Nat} {callee : Expr} {args : List Expr} {p : Position} {f : Function}
    {vs : List Value} {t u v : State σ},
    During env n j s k (m + 2) (.expr (.call callee args p)) t →
    Evaluator.expr env (m + 1) callee t = (.ok (.function f), u) →
    Evaluator.exprs env (m + 1) args u = (.ok vs, v) → v.maxCallDepth ≤ s.depth + k →
    ∃ e : RuntimeError, e.line = p.line ∧ e.message = "maximum call depth exceeded" ∧
      Evaluator.expr env (m + 2) (.call callee args p) t = (.error (.interrupt (.error e)), v)
  entered : ∀ {k m : Nat} {callee : Expr} {args : List Expr} {p : Position} {f : Function}
    {vs : List Value} {t u v : State σ},
    During env n j s k (m + 2) (.expr (.call callee args p)) t →
    Evaluator.expr env (m + 1) callee t = (.ok (.function f), u) →
    Evaluator.exprs env (m + 1) args u = (.ok vs, v) → s.depth + k < v.maxCallDepth →
    During env (m + 2) (.expr (.call callee args p)) t 1 m (.block f.unit f.decl.body)
      (Plan.entered f vs v)
  runs_body : ∀ {k m : Nat} {f : Function} {args : List Value} {line : Nat} {t : State σ},
    During env n j s k (m + 1) (.call (.function f) args line) t → s.depth + k < t.maxCallDepth →
    Evaluator.call env (m + 1) (.function f) args line t =
      Plan.left f args t (Evaluator.block env m f.unit f.decl.body (Plan.entered f args t))
  bounded : ∀ {limit : Nat}, s.depth ≤ limit →
    (∀ {k m : Nat} {i : Job} {t : State σ}, During env n j s k m i t → t.maxCallDepth = limit) →
    ∀ {k m : Nat} {i : Job} {t : State σ}, During env n j s k m i t → s.depth + k ≤ limit

namespace During

variable {n k m : Nat} {j i : Job} {s t : State σ}

theorem depth_eq (hc : env.KeepsDepth) (h : During env n j s k m i t) : t.depth = s.depth + k :=
  h.gauge (State.gauge_depth hc)

theorem depth_le (hc : env.KeepsDepth) {limit : Nat} (hs : s.depth ≤ limit)
    (hl : ∀ {k m i t}, During env n j s k m i t → t.maxCallDepth = limit)
    (h : During env n j s k m i t) : s.depth + k ≤ limit := by
  induction h with
  | self => exact hs
  | @within n k l m j i h s t u ha hd ih =>
    have ht : t.depth = s.depth + k := During.depth_eq hc (.of_asks ha)
    have le : t.depth ≤ limit := by
      by_cases hj : ∃ f args line, j = .call (.function f) args line
      · obtain ⟨f, args, line, rfl⟩ := hj
        obtain ⟨hd, rfl, -⟩ := Job.asks_of_call.1 ha
        rw [hl .self] at hd
        omega
      · have free : (j.plan env).CallFree :=
          Job.plan_callFree fun f args line h => hj ⟨f, args, line, h⟩
        rw [free.eq_zero ha] at ht
        omega
    have := ih le fun h => hl (.within ha h)
    omega

theorem entered_iff {f : Function} {args : List Value} {line : Nat} :
    (∃ u, During env (m + 1) (.call (.function f) args line) t 1 m (.block f.unit f.decl.body) u) ↔
      t.depth < t.maxCallDepth := by
  constructor
  · rintro ⟨u, h⟩
    rcases h.asks with hm | ⟨p, l, i, u, -, ha⟩
    · omega
    · exact (Job.asks_of_call.1 ha).1
  · intro hd
    exact ⟨Plan.entered f args t, .of_asks (Job.asks_of_call.2 ⟨hd, rfl, rfl, rfl⟩)⟩

end During

section Expressions

variable {m : Nat} {callee : Expr} {args : List Expr} {p : Position} {f : Function}
  {vs : List Value} {t u v : State σ}

theorem During.call (hf : Evaluator.expr env m callee t = (.ok (.function f), u))
    (ha : Evaluator.exprs env m args u = (.ok vs, v)) :
    During env (m + 1) (.expr (.call callee args p)) t 0 m (.call (.function f) vs p.line) v :=
  .of_asks (.inr ⟨.function f, u, hf, .inr ⟨vs, v, ha, rfl, rfl, rfl⟩⟩)

theorem During.depth_before_call {n k : Nat} {j : Job} {s : State σ} (hc : env.KeepsDepth)
    (h : During env n j s k (m + 1) (.expr (.call callee args p)) t)
    (hf : Evaluator.expr env m callee t = (.ok (.function f), u))
    (ha : Evaluator.exprs env m args u = (.ok vs, v)) : v.depth = s.depth + k := by
  have hv := (h.trans (.call hf ha)).depth_eq hc
  rwa [Nat.add_zero] at hv

theorem Evaluator.expr_call (hf : Evaluator.expr env m callee t = (.ok (.function f), u))
    (ha : Evaluator.exprs env m args u = (.ok vs, v)) :
    Evaluator.expr env (m + 1) (.call callee args p) t =
      Evaluator.call env m (.function f) vs p.line v := by
  rw [Evaluator.expr, Action.bind_apply, hf]
  simp only [Action.bind_apply, ha]
  rfl

theorem Evaluator.call_refused (hd : t.maxCallDepth ≤ t.depth) (vs : List Value) (line : Nat) :
    Evaluator.call env (m + 1) (.function f) vs line t =
      (.error (.interrupt (.error ⟨line, .callDepth f.decl.name t.depth⟩)), t) := by
  rw [Evaluator.call]
  exact Evaluator.callFunction_refused hd vs line _

theorem Evaluator.call_entered (hd : t.depth < t.maxCallDepth) (vs : List Value) (line : Nat) :
    Evaluator.call env (m + 1) (.function f) vs line t =
      Plan.left f vs t (Evaluator.block env m f.unit f.decl.body (Plan.entered f vs t)) := by
  have plan := congrFun (Job.run_plan env m (.call (.function f) vs line)) t
  exact plan.symm.trans (Plan.run_inCall_entered _ (Nat.not_le.2 hd) vs line _)

end Expressions

theorem counts_calls (env : Embedding σ) (hc : env.KeepsDepth) (n : Nat) (j : Job) (s : State σ) :
    CountsCalls env n j s where
  after := Job.run_gauge (State.gauge_depth hc) n j s
  during h := by
    have hd := h.depth_eq hc
    exact ⟨hd, (Job.run_gauge (State.gauge_depth hc) _ _ _).trans hd⟩
  entered_iff h := by
    rw [← h.depth_eq hc]
    exact During.entered_iff
  refused {k m callee args p f vs t u v} h hf ha hl := by
    rw [← h.depth_before_call hc hf ha] at hl
    refine ⟨⟨p.line, .callDepth f.decl.name v.depth⟩, rfl, rfl, ?_⟩
    rw [Evaluator.expr_call hf ha]
    exact Evaluator.call_refused hl vs p.line
  entered {k m callee args p f vs t u v} h hf ha hl := by
    rw [← h.depth_before_call hc hf ha] at hl
    exact (During.call hf ha).trans (.of_asks (Job.asks_of_call.2 ⟨hl, rfl, rfl, rfl⟩))
  runs_body h hd := by
    rw [← h.depth_eq hc] at hd
    exact Evaluator.call_entered hd _ _
  bounded hs hl _ _ _ _ h := h.depth_le hc hs hl

theorem counts_calls_under_changed_limit :
    let env : Embedding Unit := ⟨.silent Unit, [Extras.setDepth]⟩
    let call (name : String) (args : List Expr) : Expr := .call (.variable name .start) args .start
    let body : List Stmt :=
      [.expr (call "setDepth" [.literal (.number 3) .start]), .expr (call "f" [])]
    env.KeepsDepth ∧
      CountsCalls env 90 (.block 0 [.function "f" [] body .start, .expr (call "f" [])])
        (State.initial env .standard ()) := by
  intro env call body
  have keeps : env.KeepsDepth := by
    intro c hc args s
    rw [List.mem_singleton.1 hc]
    rfl
  exact ⟨keeps, counts_calls env keeps 90 _ _⟩

end CanvasScript
