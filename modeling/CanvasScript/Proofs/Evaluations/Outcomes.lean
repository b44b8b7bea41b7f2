import CanvasScript.Proofs.Evaluations.Progress

namespace CanvasScript

variable {σ α β : Type} {env : Embedding σ}

def Job.Ends (env : Embedding σ) (j : Job) (s : State σ) (r : Except Stop j.Result)
    (t : State σ) : Prop :=
  r ≠ .error .outOfFuel ∧ ∃ n, j.run env n s = (r, t)

namespace Plan

def Ends (x : Plan env α) (s : State σ) (r : Except Stop α) (t : State σ) : Prop :=
  r ≠ .error .outOfFuel ∧ ∃ n, x.run (Job.run env n) s = (r, t)

theorem run_mono {n m : Nat} (hnm : n ≤ m) {x : Plan env α} {s : State σ}
    (h : (x.run (Job.run env n) s).1 ≠ .error .outOfFuel) :
    x.run (Job.run env m) s = x.run (Job.run env n) s :=
  run_congr fun _ _ _ ha => Job.run_mono hnm fun hj => h (ha.outOfFuel hj)

theorem Ends.run_eq {x : Plan env α} {s t : State σ} {r : Except Stop α} {n m : Nat}
    (hr : r ≠ .error .outOfFuel) (h : x.run (Job.run env n) s = (r, t)) (hnm : n ≤ m) :
    x.run (Job.run env m) s = (r, t) :=
  h ▸ run_mono hnm (h ▸ hr)

theorem ends_pure {a : α} {s t : State σ} {r : Except Stop α} :
    (Pure.pure a : Plan env α).Ends s r t ↔ (r, t) = (.ok a, s) := by
  constructor
  · rintro ⟨-, _, h⟩
    exact h.symm
  · intro h
    cases h
    exact ⟨nofun, 0, rfl⟩

theorem ends_step {x : Step env α} {s t : State σ} {r : Except Stop α} :
    (step x : Plan env α).Ends s r t ↔ r ≠ .error .outOfFuel ∧ x.run s = (r, t) :=
  and_congr_right fun _ => ⟨fun ⟨_, h⟩ => h, fun h => ⟨0, h⟩⟩

theorem ends_step_ok {x : Step env α} {s t : State σ} {a : α} (h : x.run s = (.ok a, t)) :
    (step x : Plan env α).Ends s (.ok a) t :=
  ends_step.2 ⟨nofun, h⟩

theorem ends_step_interrupt {x : Step env α} {s t : State σ} {i : Interrupt}
    (h : x.run s = (.error (.interrupt i), t)) :
    (step x : Plan env α).Ends s (.error (.interrupt i)) t :=
  ends_step.2 ⟨nofun, h⟩

theorem ends_ask {j : Job} {s t : State σ} {r : Except Stop j.Result} :
    (ask j : Plan env j.Result).Ends s r t ↔ j.Ends env s r t := Iff.rfl

theorem ends_bind {x : Plan env α} {f : α → Plan env β} {s t : State σ} {r : Except Stop β} :
    (x >>= f).Ends s r t ↔
      (∃ stop, x.Ends s (.error stop) t ∧ r = .error stop) ∨
      ∃ a u, x.Ends s (.ok a) u ∧ (f a).Ends u r t := by
  constructor
  · rintro ⟨hr, n, h⟩
    rw [run_bind, Action.bind_apply] at h
    rcases hx : x.run (Job.run env n) s with ⟨stop | a, u⟩
    · rw [hx] at h
      cases h
      exact .inl ⟨stop, ⟨fun he => hr (congrArg _ (Except.error.inj he)), n, hx⟩, rfl⟩
    · rw [hx] at h
      exact .inr ⟨a, u, ⟨nofun, n, hx⟩, hr, n, h⟩
  · rintro (⟨stop, ⟨hr, n, hx⟩, rfl⟩ | ⟨a, u, ⟨-, n, hx⟩, hr, m, hf⟩)
    · refine ⟨fun he => hr (congrArg _ (Except.error.inj he)), n, ?_⟩
      rw [run_bind, Action.bind_apply, hx]
    · have first := Ends.run_eq (r := .ok a) nofun hx (Nat.le_max_left n m)
      refine ⟨hr, max n m, ?_⟩
      rw [run_bind, Action.bind_apply, first]
      exact Ends.run_eq hr hf (Nat.le_max_right n m)

end Plan

namespace Job

theorem ends_iff {j : Job} {s t : State σ} {r : Except Stop j.Result} :
    j.Ends env s r t ↔ (j.plan env).Ends s r t := by
  refine and_congr_right fun hr => ⟨?_, ?_⟩
  · rintro ⟨n, h⟩
    cases n with
    | zero =>
      rw [run_zero] at h
      cases h
      exact absurd rfl hr
    | succ n => exact ⟨n, run_plan env n j ▸ h⟩
  · rintro ⟨n, h⟩
    exact ⟨n + 1, run_plan env n j ▸ h⟩

theorem ends_literal {l : Literal} {p : Position} {s : State σ} (h : ∀ x, l ≠ .text x) :
    (expr (.literal l p)).Ends env s (.ok (Evaluator.literal l)) s := by
  cases l with
  | text x => exact absurd rfl (h x)
  | _ => exact ends_iff.2 (Plan.ends_pure.2 rfl)

theorem ends_update {op : UpdateOp} {x : String} {p : Position} {s t : State σ}
    {r : Except Stop Value} :
    (expr (.update op x p)).Ends env s r t ↔ Evaluator.update op x s = (r, t) := by
  rw [ends_iff, plan, Plan.ends_step]
  refine and_iff_right_of_imp fun h => ?_
  cases h
  intro ended
  cases ended

theorem Ends.unique {j : Job} {s t t' : State σ} {r r' : Except Stop j.Result}
    (h : j.Ends env s r t) (h' : j.Ends env s r' t') : r = r' ∧ t = t' := by
  obtain ⟨hr, n, h⟩ := h
  obtain ⟨hr', m, h'⟩ := h'
  have left := run_mono (Nat.le_max_left n m) (by rwa [h])
  have right := run_mono (Nat.le_max_right n m) (by rwa [h'])
  exact Prod.mk.inj (h.symm.trans (left.symm.trans (right.trans h')))

end Job

end CanvasScript
