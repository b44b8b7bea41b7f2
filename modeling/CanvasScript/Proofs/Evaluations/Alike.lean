import CanvasScript.Proofs.Evaluations.Outcomes

namespace CanvasScript

variable {σ α β γ : Type} {env : Embedding σ}

def Job.Begins (env : Embedding σ) (j : Job) (s : State σ) (k : Nat) (i : Job)
    (t : State σ) : Prop :=
  ∃ n m, During env n j s k m i t

namespace Plan

theorem Asks.mono {n m : Nat} (hnm : n ≤ m) {x : Plan env α} {s t : State σ} {k : Nat} {j : Job}
    (h : x.Asks (Job.run env n) s k j t) : x.Asks (Job.run env m) s k j t := by
  induction x generalizing s k with
  | pure | step => exact h.elim
  | ask i => exact h
  | bind x f ihx ihf =>
    rcases h with h | ⟨a, u, hr, h⟩
    · exact .inl (ihx h)
    · exact .inr ⟨a, u, Ends.run_eq (r := .ok a) nofun hr hnm, ihf a h⟩
  | loopBody body ih => exact ih h
  | inCall f args line body ih =>
    obtain ⟨hd, i, hk, h⟩ := h
    exact ⟨hd, i, hk, ih h⟩

end Plan

theorem During.mono {n l k m : Nat} {j i : Job} {s t : State σ} (hnl : n ≤ l)
    (h : During env n j s k m i t) : ∃ m', During env l j s k m' i t := by
  induction h generalizing l with
  | self => exact ⟨l, .self⟩
  | within ha _ ih =>
    obtain ⟨l, rfl⟩ : ∃ p, l = p + 1 := ⟨l - 1, by omega⟩
    have hl := Nat.le_of_succ_le_succ hnl
    obtain ⟨m', h⟩ := ih hl
    exact ⟨m', .within (ha.mono hl) h⟩

namespace Plan

def Begins (x : Plan env α) (s : State σ) (k : Nat) (i : Job) (t : State σ) : Prop :=
  ∃ n a h u b, x.Asks (Job.run env n) s a h u ∧ h.Begins env u b i t ∧ k = a + b

theorem begins_ask {j i : Job} {s t : State σ} {k : Nat} :
    (ask j : Plan env j.Result).Begins s k i t ↔ j.Begins env s k i t := by
  constructor
  · rintro ⟨n, _, _, _, b, ⟨rfl, rfl, rfl⟩, h, rfl⟩
    rwa [Nat.zero_add]
  · intro h
    exact ⟨0, 0, j, s, k, ⟨rfl, rfl, rfl⟩, h, (Nat.zero_add k).symm⟩

theorem begins_bind {x : Plan env α} {f : α → Plan env β} {s t : State σ} {k : Nat} {i : Job} :
    (x >>= f).Begins s k i t ↔
      x.Begins s k i t ∨ ∃ a u, x.Ends s (.ok a) u ∧ (f a).Begins u k i t := by
  constructor
  · rintro ⟨n, l, h, u, b, ha | ⟨a, v, hr, ha⟩, hi, rfl⟩
    · exact .inl ⟨n, l, h, u, b, ha, hi, rfl⟩
    · exact .inr ⟨a, v, ⟨nofun, n, hr⟩, n, l, h, u, b, ha, hi, rfl⟩
  · rintro (⟨n, l, h, u, b, ha, hi, rfl⟩ | ⟨a, v, ⟨-, m, hr⟩, n, l, h, u, b, ha, hi, rfl⟩)
    · exact ⟨n, l, h, u, b, .inl ha, hi, rfl⟩
    · have first := Ends.run_eq (r := .ok a) nofun hr (Nat.le_max_left m n)
      exact ⟨max m n, l, h, u, b, .inr ⟨a, v, first, ha.mono (Nat.le_max_right m n)⟩, hi, rfl⟩

theorem begins_step {x : Step env α} {s t : State σ} {k : Nat} {i : Job} :
    ¬ (step x).Begins s k i t := by
  rintro ⟨_, _, _, _, _, h, -⟩
  exact h

theorem begins_step_bind {x : Step env α} {f : α → Plan env β} {s t : State σ} {k : Nat} {i : Job} :
    (step x >>= f).Begins s k i t ↔ ∃ a u, x.run s = (.ok a, u) ∧ (f a).Begins u k i t := by
  rw [begins_bind]
  constructor
  · rintro (h | ⟨a, u, ⟨-, _, hx⟩, h⟩)
    · exact (begins_step h).elim
    · exact ⟨a, u, hx, h⟩
  · rintro ⟨a, u, hx, h⟩
    exact .inr ⟨a, u, ends_step_ok hx, h⟩

end Plan

theorem Plan.run_assoc (rec : (j : Job) → Action σ j.Result) (x : Plan env α) (f : α → Plan env β)
    (g : β → Plan env γ) (s : State σ) :
    (x >>= f >>= g).run rec s = (x >>= fun a => f a >>= g).run rec s := by
  simp only [run_bind, Action.bind_apply]
  rcases x.run rec s with ⟨_ | a, t⟩ <;> rfl

theorem Job.begins_iff {j i : Job} {s t : State σ} {k : Nat} :
    j.Begins env s k i t ↔ k = 0 ∧ i = j ∧ t = s ∨ (j.plan env).Begins s k i t := by
  constructor
  · rintro ⟨n, m, h⟩
    cases h with
    | self => exact .inl ⟨rfl, rfl, rfl⟩
    | within ha h => exact .inr ⟨_, _, _, _, _, ha, ⟨_, _, h⟩, rfl⟩
  · rintro (⟨rfl, rfl, rfl⟩ | ⟨n, a, h, u, b, ha, ⟨l, m, hi⟩, rfl⟩)
    · exact ⟨0, 0, .self⟩
    · obtain ⟨m', hi⟩ := hi.mono (Nat.le_max_right n l)
      exact ⟨_, m', .within (ha.mono (Nat.le_max_left n l)) hi⟩

namespace Plan

structure Alike (x y : Plan env α) : Prop where
  ends : ∀ s r t, x.Ends s r t ↔ y.Ends s r t
  calls : ∀ s k callee args line t,
    x.Begins s k (.call callee args line) t ↔ y.Begins s k (.call callee args line) t

namespace Alike

variable {x y z : Plan env α}

theorem refl (x : Plan env α) : x.Alike x := ⟨fun _ _ _ => .rfl, fun _ _ _ _ _ _ => .rfl⟩

theorem symm (h : x.Alike y) : y.Alike x :=
  ⟨fun s r t => (h.ends s r t).symm, fun s k c args line t => (h.calls s k c args line t).symm⟩

theorem trans (h : x.Alike y) (h' : y.Alike z) : x.Alike z where
  ends s r t := (h.ends s r t).trans (h'.ends s r t)
  calls s k c args line t := (h.calls s k c args line t).trans (h'.calls s k c args line t)

instance : Trans (@Alike σ α env) Alike Alike := ⟨trans⟩

theorem bind {f g : α → Plan env β} (h : x.Alike y) (hf : ∀ a, (f a).Alike (g a)) :
    (x >>= f).Alike (y >>= g) where
  ends s r t := by
    rw [ends_bind, ends_bind]
    simp only [h.ends, (hf _).ends]
  calls s k c args line t := by
    rw [begins_bind, begins_bind]
    simp only [h.calls, h.ends, (hf _).calls]

theorem assoc (x : Plan env α) (f : α → Plan env β) (g : β → Plan env γ) :
    (x >>= f >>= g).Alike (x >>= fun a => f a >>= g) where
  ends s r t := by simp only [Ends, run_assoc]
  calls s k c args line t := by
    simp only [begins_bind, ends_bind]
    constructor
    · rintro ((h | ⟨a, u, hx, hf⟩) | ⟨b, v, ⟨_, _, he⟩ | ⟨a, u, hx, hf⟩, hg⟩)
      · exact .inl h
      · exact .inr ⟨a, u, hx, .inl hf⟩
      · cases he
      · exact .inr ⟨a, u, hx, .inr ⟨b, v, hf, hg⟩⟩
    · rintro (h | ⟨a, u, hx, hf | ⟨b, v, hf, hg⟩⟩)
      · exact .inl (.inl h)
      · exact .inl (.inr ⟨a, u, hx, hf⟩)
      · exact .inr ⟨b, v, .inr ⟨a, u, hx, hf⟩, hg⟩

theorem pure_bind (a : α) (f : α → Plan env β) : (Pure.pure a >>= f).Alike (f a) where
  ends s r t := Iff.rfl
  calls s k c args line t := by
    rw [begins_bind]
    constructor
    · rintro (⟨_, _, _, _, _, h, -⟩ | ⟨_, _, ⟨-, _, hx⟩, h⟩)
      · exact h.elim
      · cases hx
        exact h
    · exact fun h => .inr ⟨a, s, ends_pure.2 rfl, h⟩

theorem bind_of_pure {a : α} (h : x.Alike (Pure.pure a)) (f : α → Plan env β) :
    (x >>= f).Alike (f a) :=
  (h.bind fun _ => refl _).trans (pure_bind a f)

theorem bind_pure (x : Plan env α) : (x >>= Pure.pure).Alike x where
  ends s r t := by
    rw [ends_bind]
    constructor
    · rintro (⟨stop, hx, rfl⟩ | ⟨a, u, hx, ha⟩)
      · exact hx
      · cases ends_pure.1 ha
        exact hx
    · intro h
      cases r with
      | error stop => exact .inl ⟨stop, h, rfl⟩
      | ok a => exact .inr ⟨a, t, h, ends_pure.2 rfl⟩
  calls s k c args line t := by
    rw [begins_bind]
    refine or_iff_left ?_
    rintro ⟨_, _, -, _, _, _, _, _, h, -⟩
    exact h

theorem of_run {f g : Step env α} (h : f.run = g.run) : (step f).Alike (step g) where
  ends s r t := by rw [ends_step, ends_step, h]
  calls s k callee args line t := iff_of_false begins_step begins_step

theorem onHeap_bind {f : Heap → α} {g : α → Plan env γ} {f' : Heap → β} {g' : β → Plan env γ}
    (h : ∀ heap, (g (f heap)).Alike (g' (f' heap))) :
    (step (.onHeap f) >>= g).Alike (step (.onHeap f') >>= g') where
  ends s := (h s.heap).ends s
  calls s k c args line t := by
    simp only [begins_step_bind]
    constructor
    · rintro ⟨_, _, ⟨_⟩, hg⟩
      exact ⟨_, _, rfl, ((h s.heap).calls s k c args line t).1 hg⟩
    · rintro ⟨_, _, ⟨_⟩, hg⟩
      exact ⟨_, _, rfl, ((h s.heap).calls s k c args line t).2 hg⟩

theorem onHeap_const {f : Heap → α} {g : α → Plan env β} {y : Plan env β}
    (h : ∀ heap, (g (f heap)).Alike y) : (step (.onHeap f) >>= g).Alike y where
  ends s := (h s.heap).ends s
  calls s k c args line t := by
    rw [begins_step_bind]
    constructor
    · rintro ⟨_, _, ⟨_⟩, hg⟩
      exact ((h s.heap).calls s k c args line t).1 hg
    · exact fun hy => ⟨_, _, rfl, ((h s.heap).calls s k c args line t).2 hy⟩

theorem plan {j : Job} (h : ∀ callee args line, j ≠ .call callee args line) :
    (ask j).Alike (j.plan env) where
  ends s r t := ends_ask.trans Job.ends_iff
  calls s k c args line t := by
    rw [begins_ask, Job.begins_iff]
    refine or_iff_right ?_
    rintro ⟨-, rfl, -⟩
    exact h _ _ _ rfl

end Alike

end Plan

end CanvasScript
