import CanvasScript.Proofs.Evaluations.Steps

namespace CanvasScript

variable {σ α : Type} {env : Embedding σ}

inductive During (env : Embedding σ) :
    Nat → Job → State σ → Nat → Nat → Job → State σ → Prop
  | self {n : Nat} {j : Job} {s : State σ} : During env n j s 0 n j s
  | within {n k l m : Nat} {j i h : Job} {s t u : State σ} :
      (j.plan env).Asks (Job.run env n) s k i t → During env n i t l m h u →
      During env (n + 1) j s (k + l) m h u

/-- A number read off a state that every evaluation leaves as it was, given that the functions of
the embedding program do: steps do not change it, and the body of a call changes it no more than the
number of calls in progress. -/
structure State.Gauge (env : Embedding σ) (f : State σ → Nat) : Prop where
  beside : ∀ {s t : State σ}, s.Beside t → f t = f s
  custom : ∀ c ∈ env.customs, ∀ args s, f (c.call args s).2 = f s
  deeper : ∀ {s t : State σ} (k : Nat), f t = f s →
    f { t with depth := t.depth + k } = f { s with depth := s.depth + k }
  back : ∀ {s t : State σ}, f t = f { s with depth := s.depth + 1 } →
    f { t with depth := t.depth - 1 } = f s

theorem State.gauge_depth
    (h : ∀ c ∈ env.customs, ∀ args (s : State σ), (c.call args s).2.depth = s.depth) :
    Gauge env State.depth where
  beside := by
    rintro s _ ⟨_, _, _, rfl⟩
    rfl
  custom := h
  deeper k h := by simp [h]
  back h := by simp [h]

theorem State.gauge_maxCallDepth (h : env.customs = []) : Gauge env State.maxCallDepth where
  beside := by
    rintro s _ ⟨_, _, _, rfl⟩
    rfl
  custom c hc := by simp [h] at hc
  deeper _ h := h
  back h := h

theorem Action.attributed_state (line : Nat) (x : Action σ α) (s : State σ) :
    (Action.attributed line x s).2 = (x s).2 := by
  unfold Action.attributed
  split <;> simp_all

theorem Action.loopBody_state (x : Action σ Unit) (s : State σ) :
    (Action.loopBody x s).2 = (x s).2 := by
  unfold Action.loopBody
  split <;> simp_all

namespace Plan

variable {rec : (j : Job) → Action σ j.Result} {f : State σ → Nat}

theorem entered_beside (g : Function) (args : List Value) (s : State σ) :
    State.Beside { s with depth := s.depth + 1 } (entered g args s) :=
  ⟨_, _, _, rfl⟩

theorem run_gauge (hf : State.Gauge env f) (hrec : ∀ j s, f (rec j s).2 = f s) (x : Plan env α)
    (s : State σ) : f (x.run rec s).2 = f s := by
  induction x generalizing s with
  | pure a => rfl
  | step x =>
    refine x.run_cases (motive := fun y => ∀ s, f (y s).2 = f s) ?_ ?_ s
    · exact fun y hy s => hf.beside (hy s).1
    · intro c hc args line s
      rw [Action.attributed_state]
      exact hf.custom c hc args s
  | ask j => exact hrec j s
  | bind x g ihx ihg =>
    have hx := ihx s
    rw [run, Action.bind_apply]
    rcases hr : x.run rec s with ⟨_ | a, t⟩
    · rw [hr] at hx
      exact hx
    · rw [hr] at hx
      exact (ihg a t).trans hx
  | loopBody body ih =>
    rw [run, Action.loopBody_state]
    exact ih s
  | inCall g args line body ih =>
    by_cases hd : s.maxCallDepth ≤ s.depth
    · rw [run_inCall_refused rec hd]
    · rw [run_inCall_entered rec hd]
      refine (hf.beside ⟨_, _, _, rfl⟩).trans (hf.back ?_)
      exact (ih (entered g args s)).trans (hf.beside (entered_beside g args s))

theorem Asks.gauge (hf : State.Gauge env f) (hrec : ∀ j s, f (rec j s).2 = f s) {x : Plan env α}
    {s t : State σ} {k : Nat} {j : Job} (h : x.Asks rec s k j t) :
    f t = f { s with depth := s.depth + k } := by
  induction x generalizing s k with
  | pure | step => exact h.elim
  | ask i =>
    obtain ⟨rfl, -, rfl⟩ := h
    rfl
  | bind x g ihx ihg =>
    rcases h with h | ⟨a, u, hr, h⟩
    · exact ihx h
    · have hu : f u = f s := by
        have := run_gauge hf hrec x s
        rwa [hr] at this
      exact (ihg a h).trans (hf.deeper k hu)
  | loopBody body ih => exact ih h
  | inCall g args line body ih =>
    obtain ⟨-, i, rfl, h⟩ := h
    rw [Nat.add_comm i, ← Nat.add_assoc]
    exact (ih h).trans (hf.deeper i (hf.beside (entered_beside g args s)))

theorem callResult_eq_outOfFuel {r : Except Stop Unit} :
    Evaluator.callResult r = .error .outOfFuel ↔ r = .error .outOfFuel := by
  match r with
  | .ok () | .error .outOfFuel | .error (.interrupt (.returned _)) | .error (.interrupt .break_)
  | .error (.interrupt .continue_) | .error (.interrupt .exit) | .error (.interrupt (.error _)) =>
    simp [Evaluator.callResult]

theorem loopBody_eq_outOfFuel {x : Action σ Unit} {s : State σ} :
    (Action.loopBody x s).1 = .error .outOfFuel ↔ (x s).1 = .error .outOfFuel := by
  unfold Action.loopBody
  rcases x s with ⟨r, t⟩
  match r with
  | .ok () | .error .outOfFuel | .error (.interrupt (.returned _)) | .error (.interrupt .break_)
  | .error (.interrupt .continue_) | .error (.interrupt .exit) | .error (.interrupt (.error _)) =>
    simp

theorem Asks.outOfFuel {x : Plan env α} {s t : State σ} {k : Nat} {j : Job}
    (h : x.Asks rec s k j t) (hj : (rec j t).1 = .error .outOfFuel) :
    (x.run rec s).1 = .error .outOfFuel := by
  induction x generalizing s k with
  | pure | step => exact h.elim
  | ask i =>
    obtain ⟨-, rfl, rfl⟩ := h
    exact hj
  | bind x g ihx ihg =>
    rw [run, Action.bind_apply]
    rcases h with h | ⟨a, u, hr, h⟩
    · have hx := ihx h
      rcases hr : x.run rec s with ⟨_ | a, u⟩
      · rw [hr] at hx
        cases hx
        rfl
      · rw [hr] at hx
        cases hx
    · rw [hr]
      exact ihg a h
  | loopBody body ih => exact loopBody_eq_outOfFuel.2 (ih h)
  | inCall g args line body ih =>
    obtain ⟨hd, i, -, h⟩ := h
    rw [run_inCall_entered rec (Nat.not_le.2 hd)]
    exact callResult_eq_outOfFuel.2 (ih h)

theorem exists_asks_outOfFuel (he : env.customs = []) {x : Plan env α} {s : State σ}
    (h : (x.run rec s).1 = .error .outOfFuel) :
    ∃ k j t, x.Asks rec s k j t ∧ (rec j t).1 = .error .outOfFuel := by
  induction x generalizing s with
  | pure a => cases h
  | step x => exact absurd h (x.run_simple he s).2
  | ask j => exact ⟨0, j, s, ⟨rfl, rfl, rfl⟩, h⟩
  | bind x g ihx ihg =>
    rw [run, Action.bind_apply] at h
    rcases hr : x.run rec s with ⟨e | a, u⟩
    · rw [hr] at h
      cases h
      obtain ⟨k, j, t, ha, hj⟩ := ihx (s := s) (by rw [hr])
      exact ⟨k, j, t, .inl ha, hj⟩
    · rw [hr] at h
      obtain ⟨k, j, t, ha, hj⟩ := ihg a h
      exact ⟨k, j, t, .inr ⟨a, u, hr, ha⟩, hj⟩
  | loopBody body ih => exact ih (loopBody_eq_outOfFuel.1 h)
  | inCall g args line body ih =>
    by_cases hd : s.maxCallDepth ≤ s.depth
    · rw [run_inCall_refused rec hd] at h
      cases h
    · rw [run_inCall_entered rec hd] at h
      obtain ⟨k, j, t, ha, hj⟩ := ih (callResult_eq_outOfFuel.1 h)
      exact ⟨k + 1, j, t, ⟨Nat.not_le.1 hd, k, rfl, ha⟩, hj⟩

theorem run_congr {rec' : (j : Job) → Action σ j.Result} {x : Plan env α} {s : State σ}
    (h : ∀ k j t, x.Asks rec s k j t → rec' j t = rec j t) : x.run rec' s = x.run rec s := by
  induction x generalizing s with
  | pure | step => rfl
  | ask j => exact h 0 j s ⟨rfl, rfl, rfl⟩
  | bind x g ihx ihg =>
    rw [run, run, Action.bind_apply, Action.bind_apply, ihx fun k j t ha => h k j t (.inl ha)]
    rcases hr : x.run rec s with ⟨e | a, u⟩
    · rfl
    · exact ihg a fun k j t ha => h k j t (.inr ⟨a, u, hr, ha⟩)
  | loopBody body ih =>
    have hb : body.run rec' s = body.run rec s := ih h
    rw [run, run, Action.loopBody, Action.loopBody, hb]
  | inCall g args line body ih =>
    by_cases hd : s.maxCallDepth ≤ s.depth
    · rw [run_inCall_refused rec' hd, run_inCall_refused rec hd]
    · rw [run_inCall_entered rec' hd, run_inCall_entered rec hd,
        ih fun k j t ha => h (k + 1) j t ⟨Nat.not_le.1 hd, k, rfl, ha⟩]

end Plan

namespace Plan

variable {rec : (j : Job) → Action σ j.Result} {β : Type}

def CallFree {α : Type} : Plan env α → Prop
  | pure _ => True
  | step _ => True
  | ask _ => True
  | bind x f => x.CallFree ∧ ∀ a, (f a).CallFree
  | loopBody body => body.CallFree
  | inCall .. => False

@[simp] theorem callFree_pure (a : α) : (Pure.pure a : Plan env α).CallFree := trivial

@[simp] theorem callFree_step (x : Step env α) : (step x).CallFree := trivial

-- the type of the result is computed from the job, so it is no key to find the lemma by
@[simp] theorem callFree_ask (j : Job) : @CallFree σ env (no_index j.Result) (ask j) := trivial

@[simp] theorem callFree_bind (x : Plan env α) (f : α → Plan env β) :
    (x >>= f).CallFree ↔ x.CallFree ∧ ∀ a, (f a).CallFree := Iff.rfl

@[simp] theorem callFree_loopBody (body : Plan env Unit) :
    (loopBody body).CallFree ↔ body.CallFree := Iff.rfl

@[simp] theorem callFree_ite (c : Prop) [Decidable c] (x y : Plan env α) :
    (if c then x else y).CallFree ↔ if c then x.CallFree else y.CallFree := by
  split <;> rfl

theorem CallFree.eq_zero {x : Plan env α} (hx : x.CallFree) {s t : State σ} {k : Nat} {j : Job}
    (h : x.Asks rec s k j t) : k = 0 := by
  induction x generalizing s with
  | pure | step => exact h.elim
  | ask i => exact h.1
  | bind x g ihx ihg =>
    rcases h with h | ⟨a, u, -, h⟩
    · exact ihx hx.1 h
    · exact ihg a (hx.2 a) h
  | loopBody body ih => exact ih hx h
  | inCall => exact hx.elim

end Plan

namespace Job

theorem plan_callFree {j : Job} (h : ∀ f args line, j ≠ call (.function f) args line) :
    (j.plan env).CallFree := by
  fun_cases plan env j
  all_goals try exact absurd rfl (h _ _ _)
  all_goals simp [plan, Step.fail]
  all_goals split <;> simp

theorem asks_of_call {rec : (j : Job) → Action σ j.Result} {f : Function} {args : List Value}
    {line k : Nat} {i : Job} {s t : State σ} :
    ((Job.call (.function f) args line).plan env).Asks rec s k i t ↔
      s.depth < s.maxCallDepth ∧ k = 1 ∧ i = .block f.unit f.decl.body ∧
        t = Plan.entered f args s := by
  constructor
  · rintro ⟨hd, _, rfl, rfl, rfl, rfl⟩
    exact ⟨hd, rfl, rfl, rfl⟩
  · rintro ⟨hd, rfl, rfl, rfl⟩
    exact ⟨hd, 0, rfl, rfl, rfl, rfl⟩

theorem run_gauge {f : State σ → Nat} (hf : State.Gauge env f) (n : Nat) (j : Job) (s : State σ) :
    f (j.run env n s).2 = f s := by
  induction n generalizing j s with
  | zero => rw [run_zero]
  | succ n ih =>
    rw [← run_plan]
    exact Plan.run_gauge hf ih (j.plan env) s

theorem run_mono {n m : Nat} (hnm : n ≤ m) {j : Job} {s : State σ}
    (h : (j.run env n s).1 ≠ .error .outOfFuel) : j.run env m s = j.run env n s := by
  induction n generalizing m j s with
  | zero => simp [run_zero] at h
  | succ n ih =>
    obtain ⟨m, rfl⟩ : ∃ l, m = l + 1 := ⟨m - 1, by omega⟩
    rw [← run_plan] at h
    rw [← run_plan, ← run_plan]
    exact Plan.run_congr fun k i t ha => ih (by omega) fun hi => h (ha.outOfFuel hi)

end Job

namespace During

theorem gauge {f : State σ → Nat} (hf : State.Gauge env f) {n k m : Nat} {j i : Job}
    {s t : State σ} (h : During env n j s k m i t) :
    f t = f { s with depth := s.depth + k } := by
  induction h with
  | self => rfl
  | within ha _ ih =>
    rw [ih, ← Nat.add_assoc]
    exact hf.deeper _ (ha.gauge hf (Job.run_gauge hf _))

theorem asks {n k m : Nat} {j i : Job} {s t : State σ} (h : During env n j s k m i t) :
    n = m ∨ ∃ p l h u, n = p + 1 ∧ (j.plan env).Asks (Job.run env p) s l h u := by
  cases h with
  | self => exact .inl rfl
  | within ha _ => exact .inr ⟨_, _, _, _, rfl, ha⟩

theorem of_asks {n k : Nat} {j i : Job} {s t : State σ}
    (h : (j.plan env).Asks (Job.run env n) s k i t) : During env (n + 1) j s k n i t :=
  .within h .self

theorem trans {n k m l p : Nat} {j i h : Job} {s t u : State σ} (hi : During env n j s k m i t)
    (hh : During env m i t l p h u) : During env n j s (k + l) p h u := by
  induction hi with
  | self => rwa [Nat.zero_add]
  | within ha _ ih =>
    rw [Nat.add_assoc]
    exact .within ha (ih hh)

end During

theorem Job.exists_during_zero (he : env.customs = []) {n : Nat} {j : Job} {s : State σ}
    (h : (j.run env n s).1 = .error .outOfFuel) : ∃ k i t, During env n j s k 0 i t := by
  induction n generalizing j s with
  | zero => exact ⟨0, j, s, .self⟩
  | succ n ih =>
    rw [← run_plan] at h
    obtain ⟨k, i, t, ha, hi⟩ := Plan.exists_asks_outOfFuel he h
    obtain ⟨l, i', t', hd⟩ := ih hi
    exact ⟨k + l, i', t', .within ha hd⟩

end CanvasScript
