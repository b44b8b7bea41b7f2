import CanvasScript.Proofs.Counting.Numbers
import CanvasScript.Proofs.Evaluations.Alike

namespace CanvasScript

variable {σ α β : Type} {env : Embedding σ}

namespace Plan

def AsksFor (x : Plan env α) (s : State σ) (j : Job) (t : State σ) : Prop :=
  ∃ n, x.Asks (Job.run env n) s 0 j t

variable {s t : State σ} {j : Job}

@[simp] theorem asksFor_pure {a : α} : ¬(Pure.pure a : Plan env α).AsksFor s j t := by
  rintro ⟨n, h⟩
  exact h

@[simp] theorem asksFor_step {x : Step env α} : ¬(step x).AsksFor s j t := by
  rintro ⟨n, h⟩
  exact h

theorem asksFor_ask {i : Job} : (ask i : Plan env i.Result).AsksFor s j t ↔ j = i ∧ t = s := by
  constructor
  · rintro ⟨n, -, h⟩
    exact h
  · intro h
    exact ⟨0, rfl, h⟩

theorem asksFor_bind {x : Plan env α} {f : α → Plan env β} :
    (x >>= f).AsksFor s j t ↔
      x.AsksFor s j t ∨ ∃ a u, x.Ends s (.ok a) u ∧ (f a).AsksFor u j t := by
  constructor
  · rintro ⟨n, h | ⟨a, u, hx, h⟩⟩
    · exact .inl ⟨n, h⟩
    · exact .inr ⟨a, u, ⟨nofun, n, hx⟩, n, h⟩
  · rintro (⟨n, h⟩ | ⟨a, u, ⟨-, n, hx⟩, m, h⟩)
    · exact ⟨n, .inl h⟩
    · have first := Ends.run_eq (r := .ok a) nofun hx (Nat.le_max_left n m)
      exact ⟨max n m, .inr ⟨a, u, first, h.mono (Nat.le_max_right n m)⟩⟩

theorem asksFor_step_bind {x : Step env α} {f : α → Plan env β} :
    (step x >>= f).AsksFor s j t ↔ ∃ a u, x.run s = (.ok a, u) ∧ (f a).AsksFor u j t := by
  rw [asksFor_bind, or_iff_right asksFor_step]
  constructor
  · rintro ⟨a, u, ⟨-, n, hx⟩, h⟩
    exact ⟨a, u, hx, h⟩
  · rintro ⟨a, u, hx, h⟩
    exact ⟨a, u, ends_step.2 ⟨nofun, hx⟩, h⟩

end Plan

theorem Stop.ok_ne_outOfFuel {a : α} : (.ok a : Except Stop α) ≠ .error .outOfFuel := by
  intro h
  cases h

theorem Stop.interrupt_ne_outOfFuel {i : Interrupt} :
    (.error (.interrupt i) : Except Stop α) ≠ .error .outOfFuel := by
  intro h
  cases h

inductive GoesOn : Except Stop Unit → Prop
  | ok : GoesOn (.ok ())
  | continue_ : GoesOn (.error (.interrupt .continue_))

/-- A loop whose body run has ended with `q` ends with `r`: `break` ends the loop alone, and what is
neither `break` nor `continue` ends what is around the loop too. -/
inductive Leaves : Except Stop Unit → Except Stop Unit → Prop
  | break_ : Leaves (.error (.interrupt .break_)) (.ok ())
  | other {stop : Stop} : stop ≠ .interrupt .break_ → stop ≠ .interrupt .continue_ →
      Leaves (.error stop) (.error stop)

theorem GoesOn.not_leaves {q r : Except Stop Unit} (h : GoesOn q) : ¬Leaves q r := by
  cases h with
  | ok => nofun
  | continue_ =>
    intro leaves
    cases leaves with
    | other _ hc => exact hc rfl

theorem Action.loopBody_ends {q : Except Stop Unit} {r : Except Stop Bool} {s t u : State σ} :
    r ≠ .error .outOfFuel ∧ Action.loopBody (fun _ => (q, u)) s = (r, t) ↔
      q ≠ .error .outOfFuel ∧ u = t ∧
        (GoesOn q ∧ r = .ok true ∨ Leaves q (.ok ()) ∧ r = .ok false ∨
          ∃ stop, Leaves q (.error stop) ∧ r = .error stop) := by
  constructor
  · rintro ⟨hr, h⟩
    cases q with
    | ok =>
      cases h
      exact ⟨Stop.ok_ne_outOfFuel, rfl, .inl ⟨.ok, rfl⟩⟩
    | error stop =>
      cases stop with
      | outOfFuel =>
        cases h
        exact absurd rfl hr
      | interrupt i =>
        refine ⟨Stop.interrupt_ne_outOfFuel, ?_⟩
        cases i with
        | continue_ =>
          cases h
          exact ⟨rfl, .inl ⟨.continue_, rfl⟩⟩
        | break_ =>
          cases h
          exact ⟨rfl, .inr (.inl ⟨.break_, rfl⟩)⟩
        | returned | exit | error =>
          cases h
          refine ⟨rfl, .inr (.inr ⟨_, .other ?_ ?_, rfl⟩)⟩ <;>
            intro same <;> cases same
  · rintro ⟨hq, rfl, ⟨goes, rfl⟩ | ⟨leaves, rfl⟩ | ⟨stop, leaves, rfl⟩⟩
    · refine ⟨Stop.ok_ne_outOfFuel, ?_⟩
      cases goes <;> rfl
    · refine ⟨Stop.ok_ne_outOfFuel, ?_⟩
      cases leaves
      rfl
    · cases leaves with
      | other notBreak notContinue =>
        refine ⟨fun h => hq (congrArg _ (Except.error.inj h)), ?_⟩
        cases stop with
        | outOfFuel => rfl
        | interrupt i =>
          cases i with
          | break_ => exact absurd rfl notBreak
          | continue_ => exact absurd rfl notContinue
          | returned | exit | error => rfl

namespace Plan

variable {s t : State σ}

theorem ends_loopBody {body : Plan env Unit} {r : Except Stop Bool} :
    (loopBody body).Ends s r t ↔ ∃ q, body.Ends s q t ∧
      (GoesOn q ∧ r = .ok true ∨ Leaves q (.ok ()) ∧ r = .ok false ∨
        ∃ stop, Leaves q (.error stop) ∧ r = .error stop) := by
  have ran {n : Nat} {q : Except Stop Unit} {u : State σ}
      (h : body.run (Job.run env n) s = (q, u)) :
      (loopBody body).run (Job.run env n) s = Action.loopBody (fun _ => (q, u)) s := by
    simp only [run, Action.loopBody, h]
  constructor
  · rintro ⟨hr, n, h⟩
    rcases hb : body.run (Job.run env n) s with ⟨q, u⟩
    rw [ran hb] at h
    obtain ⟨hq, rfl, made⟩ := Action.loopBody_ends.1 ⟨hr, h⟩
    exact ⟨q, ⟨hq, n, hb⟩, made⟩
  · rintro ⟨q, ⟨hq, n, hb⟩, made⟩
    obtain ⟨hr, h⟩ := Action.loopBody_ends.2 ⟨hq, rfl, made⟩
    exact ⟨hr, n, (ran hb).trans h⟩

end Plan

def State.counting (s : State σ) (x : String) (k : Nat) : State σ :=
  { s with bindings := s.bindings.insert x (.number (Number.ofNat k)) }

namespace Job

variable {unit count k : Nat} {x : String} {body : List Stmt} {s t u : State σ} {j : Job}
  {r : Except Stop Unit}

theorem ends_forLoop (h : k < count) :
    (forLoop unit x count body k).Ends env s r u ↔
      ∃ q w, (block unit body).Ends env (s.counting x k) q w ∧
        (GoesOn q ∧ (forLoop unit x count body (Evaluator.nextCount k)).Ends env w r u ∨
          Leaves q r ∧ u = w) := by
  have shown {a : Unit} {w : State σ} :
      (@Plan.step σ env _ (.setVariable x (.number (Number.ofNat k)))).Ends s (.ok a) w ↔
        w = s.counting x k := by
    rw [Plan.ends_step]
    constructor
    · rintro ⟨-, h⟩
      exact (Prod.mk.inj h).2.symm
    · rintro rfl
      exact ⟨Stop.ok_ne_outOfFuel, rfl⟩
  rw [ends_iff, plan, if_pos h, Plan.ends_bind]
  constructor
  · rintro (⟨stop, ⟨-, n, he⟩, -⟩ | ⟨a, w, first, h⟩)
    · cases he
    obtain rfl := shown.1 first
    rcases Plan.ends_bind.1 h with ⟨stop, ran, rfl⟩ | ⟨goesOn, w, ran, rest⟩
    · obtain ⟨q, hq, ⟨-, he⟩ | ⟨-, he⟩ | ⟨stop, leaves, he⟩⟩ := Plan.ends_loopBody.1 ran
      · cases he
      · cases he
      · cases he
        exact ⟨q, u, hq, .inr ⟨leaves, rfl⟩⟩
    · obtain ⟨q, hq, ⟨goes, he⟩ | ⟨leaves, he⟩ | ⟨stop, -, he⟩⟩ := Plan.ends_loopBody.1 ran
      · cases he
        exact ⟨q, w, hq, .inl ⟨goes, rest⟩⟩
      · cases he
        cases Plan.ends_pure.1 rest
        exact ⟨q, u, hq, .inr ⟨leaves, rfl⟩⟩
      · cases he
  · rintro ⟨q, w, hq, ⟨goes, rest⟩ | ⟨leaves, rfl⟩⟩
    · refine .inr ⟨(), _, shown.2 rfl, Plan.ends_bind.2 (.inr ⟨true, w, ?_, rest⟩)⟩
      exact Plan.ends_loopBody.2 ⟨q, hq, .inl ⟨goes, rfl⟩⟩
    · refine .inr ⟨(), _, shown.2 rfl, Plan.ends_bind.2 ?_⟩
      cases r with
      | ok =>
        refine .inr ⟨false, u, ?_, Plan.ends_pure.2 rfl⟩
        exact Plan.ends_loopBody.2 ⟨q, hq, .inr (.inl ⟨leaves, rfl⟩)⟩
      | error stop =>
        refine .inl ⟨stop, ?_, rfl⟩
        exact Plan.ends_loopBody.2 ⟨q, hq, .inr (.inr ⟨stop, leaves, rfl⟩)⟩

theorem ends_forLoop_done (h : count ≤ k) :
    (forLoop unit x count body k).Ends env s r u ↔ r = .ok () ∧ u = s := by
  rw [ends_iff, plan, if_neg (Nat.not_lt.2 h), Plan.ends_pure, Prod.mk.injEq]

theorem forLoop_asksFor (h : k < count) :
    ((forLoop unit x count body k).plan env).AsksFor s j t ↔
      j = block unit body ∧ t = s.counting x k ∨
      j = forLoop unit x count body (Evaluator.nextCount k) ∧
        ∃ q, (block unit body).Ends env (s.counting x k) q t ∧ GoesOn q := by
  rw [plan, if_pos h, Plan.asksFor_step_bind]
  constructor
  · rintro ⟨_, _, hx, h⟩
    cases hx
    rcases Plan.asksFor_bind.1 h with h | ⟨goesOn, w, ends, h⟩
    · exact .inl (Plan.asksFor_ask.1 h)
    · obtain ⟨q, hq, ⟨goes, he⟩ | ⟨-, he⟩ | ⟨stop, -, he⟩⟩ := Plan.ends_loopBody.1 ends
      · cases he
        obtain ⟨rfl, rfl⟩ := Plan.asksFor_ask.1 h
        exact .inr ⟨rfl, q, hq, goes⟩
      · cases he
        exact (Plan.asksFor_pure h).elim
      · cases he
  · rintro (⟨rfl, rfl⟩ | ⟨rfl, q, hq, goes⟩)
    · exact ⟨(), _, rfl, Plan.asksFor_bind.2 (.inl (Plan.asksFor_ask.2 ⟨rfl, rfl⟩))⟩
    · have ends := Plan.ends_loopBody.2 ⟨q, Plan.ends_ask.2 hq, .inl ⟨goes, rfl⟩⟩
      exact ⟨(), _, rfl, Plan.asksFor_bind.2
        (.inr ⟨true, t, ends, Plan.asksFor_ask.2 ⟨rfl, rfl⟩⟩)⟩

theorem forLoop_asksFor_done (h : count ≤ k) :
    ¬((forLoop unit x count body k).plan env).AsksFor s j t := by
  rw [plan, if_neg (Nat.not_lt.2 h)]
  exact Plan.asksFor_pure

end Job

section Loop

variable (env) (unit : Nat) (x : String) (body : List Stmt)

inductive Counted (t : State σ) : Nat → State σ → Prop
  | start : Counted t 0 t
  | next {k : Nat} {w u : State σ} {q : Except Stop Unit} : Counted t k w →
      (Job.block unit body).Ends env (w.counting x k) q u → GoesOn q → Counted t (k + 1) u

/-- While the loop is run from a state on, its body is entered in the state `u` after `k` other runs
of it. What is entered inside runs of the body is not meant. -/
inductive Enters : Job → State σ → Nat → State σ → Prop
  | body {count i : Nat} {s u : State σ} :
      ((Job.forLoop unit x count body i).plan env).AsksFor s (.block unit body) u →
      Enters (.forLoop unit x count body i) s 0 u
  | round {count i i' k : Nat} {s w u : State σ} :
      ((Job.forLoop unit x count body i).plan env).AsksFor s
        (.forLoop unit x count body i') w →
      Enters (.forLoop unit x count body i') w k u →
      Enters (.forLoop unit x count body i) s (k + 1) u
  | loop {e : Expr} {p : Position} {count k : Nat} {s w u : State σ} :
      ((Job.stmt unit (.for_ x e body p)).plan env).AsksFor s
        (.forLoop unit x count body 0) w →
      Enters (.forLoop unit x count body 0) w k u →
      Enters (.stmt unit (.for_ x e body p)) s k u

end Loop

namespace Counted

variable {unit count k m : Nat} {x : String} {body : List Stmt} {t w w' u : State σ}
  {r : Except Stop Unit}

theorem unique (h : Counted env unit x body t k w) (h' : Counted env unit x body t k w') :
    w = w' := by
  induction h generalizing w' with
  | start =>
    cases h'
    rfl
  | next _ run _ ih =>
    cases h' with
    | next before run' _ =>
      cases ih before
      exact (run.unique run').2

theorem unroll (h : Counted env unit x body t (k + 1) u) :
    ∃ w, Counted env unit x body t k w ∧
      ∃ q, (Job.block unit body).Ends env (w.counting x k) q u ∧ GoesOn q := by
  cases h with
  | next before run goes => exact ⟨_, before, _, run, goes⟩

theorem nextCount_eq (h : k < count) (hc : count ≤ Number.pow2 53) :
    Evaluator.nextCount k = k + 1 :=
  Nat.min_eq_left (Nat.le_trans h hc)

theorem ends_iff (hc : count ≤ Number.pow2 53) (h : Counted env unit x body t k w)
    (hk : k ≤ count) :
    (Job.forLoop unit x count body 0).Ends env t r u ↔
      (∃ i < k, ∃ v q, Counted env unit x body t i v ∧
        (Job.block unit body).Ends env (v.counting x i) q u ∧ Leaves q r) ∨
      (Job.forLoop unit x count body k).Ends env w r u := by
  induction h with
  | start => simp
  | @next k w w' q before run goes ih =>
    have next := nextCount_eq hk hc
    rw [ih (Nat.le_of_succ_le hk), Job.ends_forLoop hk, next]
    constructor
    · rintro (⟨i, hi, rest⟩ | ⟨q', v, run', ⟨-, rest⟩ | ⟨leaves, -⟩⟩)
      · exact .inl ⟨i, Nat.lt_succ_of_lt hi, rest⟩
      · obtain ⟨-, rfl⟩ := run.unique run'
        exact .inr rest
      · obtain ⟨rfl, -⟩ := run.unique run'
        exact absurd leaves goes.not_leaves
    · rintro (⟨i, hi, v, q', counted, run', leaves⟩ | rest)
      · rcases Nat.lt_succ_iff_lt_or_eq.1 hi with lt | rfl
        · exact .inl ⟨i, lt, v, q', counted, run', leaves⟩
        · cases counted.unique before
          obtain ⟨rfl, -⟩ := run.unique run'
          exact absurd leaves goes.not_leaves
      · exact .inr ⟨q, w', run, .inl ⟨goes, rest⟩⟩

theorem of_ends (hc : count ≤ Number.pow2 53) (h : Counted env unit x body t k w)
    (hm : k + m = count) (ends : (Job.forLoop unit x count body k).Ends env w r u) :
    r = .ok () ∧ Counted env unit x body t count u ∨
      ∃ i < count, ∃ v q, Counted env unit x body t i v ∧
        (Job.block unit body).Ends env (v.counting x i) q u ∧ Leaves q r := by
  induction m generalizing k w with
  | zero =>
    obtain rfl : k = count := hm
    obtain ⟨rfl, rfl⟩ := (Job.ends_forLoop_done (Nat.le_refl k)).1 ends
    exact .inl ⟨rfl, h⟩
  | succ m ih =>
    have hk : k < count := by omega
    obtain ⟨q, v, run, ⟨goes, rest⟩ | ⟨leaves, rfl⟩⟩ := (Job.ends_forLoop hk).1 ends
    · rw [nextCount_eq hk hc] at rest
      exact ih (h.next run goes) (by omega) rest
    · exact .inr ⟨k, hk, w, q, h, run, leaves⟩

theorem earlier (h : Counted env unit x body t m w) (hk : k ≤ m) :
    ∃ v, Counted env unit x body t k v := by
  induction h with
  | start =>
    cases Nat.le_zero.1 hk
    exact ⟨t, .start⟩
  | @next m _ u _ before run goes ih =>
    rcases Nat.le_succ_iff.1 hk with le | rfl
    · exact ih le
    · exact ⟨u, before.next run goes⟩

theorem enters_iff (hc : count ≤ Number.pow2 53) (h : Counted env unit x body t k w)
    (hk : k ≤ count) :
    Enters env unit x body (.forLoop unit x count body k) w m u ↔
      k + m < count ∧ ∃ v, Counted env unit x body t (k + m) v ∧ u = v.counting x (k + m) := by
  induction m generalizing k w with
  | zero =>
    constructor
    · intro enters
      cases enters with
      | body asked =>
        rcases Nat.lt_or_ge k count with lt | done
        · rcases (Job.forLoop_asksFor lt).1 asked with ⟨-, rfl⟩ | ⟨other, -⟩
          · exact ⟨lt, w, h, rfl⟩
          · cases other
        · exact absurd asked (Job.forLoop_asksFor_done done)
    · rintro ⟨lt, v, counted, rfl⟩
      cases counted.unique h
      exact .body ((Job.forLoop_asksFor lt).2 (.inl ⟨rfl, rfl⟩))
  | succ m ih =>
    have shift : k + (m + 1) = k + 1 + m := by omega
    rw [shift]
    constructor
    · intro enters
      cases enters with
      | round asked rest =>
        rcases Nat.lt_or_ge k count with lt | done
        · rcases (Job.forLoop_asksFor lt).1 asked with ⟨other, -⟩ | ⟨same, q, run, goes⟩
          · cases other
          · cases same
            rw [nextCount_eq lt hc] at rest
            exact (ih (h.next run goes) lt).1 rest
        · exact absurd asked (Job.forLoop_asksFor_done done)
    · rintro ⟨lt, v, counted, rfl⟩
      have first : k < count := by omega
      obtain ⟨w', counted'⟩ := counted.earlier (Nat.le_add_right (k + 1) m)
      obtain ⟨w'', before, q, run, goes⟩ := counted'.unroll
      cases before.unique h
      refine .round ((Job.forLoop_asksFor first).2 (.inr ⟨rfl, q, run, goes⟩)) ?_
      rw [nextCount_eq first hc]
      exact (ih counted' first).2 ⟨lt, v, counted, rfl⟩

end Counted

namespace Job

variable {unit : Nat} {x : String} {body : List Stmt} {e : Expr} {p : Position} {s t u : State σ}
  {v : Value} {r : Except Stop Unit}

theorem ends_for (he : (expr e).Ends env s (.ok v) t) :
    (stmt unit (.for_ x e body p)).Ends env s r u ↔
      (forLoop unit x (Number.countBelow (v.toNumber t.heap)) body 0).Ends env t r u := by
  rw [ends_iff, plan, Plan.ends_bind]
  constructor
  · rintro (⟨stop, ends, -⟩ | ⟨a, w, ends, rest⟩)
    · cases (he.unique ends).1
    · obtain ⟨same, rfl⟩ := he.unique ends
      cases same
      rcases Plan.ends_bind.1 rest with ⟨stop, ⟨-, n, read⟩, -⟩ | ⟨count, w, ⟨-, n, read⟩, loop⟩
      · cases read
      · cases read
        exact loop
  · intro loop
    have counted : (@Plan.step σ env _ (.onHeap fun h => Number.countBelow (v.toNumber h))).Ends t
        (.ok (Number.countBelow (v.toNumber t.heap))) t :=
      Plan.ends_step.2 ⟨Stop.ok_ne_outOfFuel, rfl⟩
    exact .inr ⟨v, t, he, Plan.ends_bind.2 (.inr ⟨_, t, counted, loop⟩)⟩

theorem for_asksFor {count i : Nat} (he : (expr e).Ends env s (.ok v) t) :
    ((stmt unit (.for_ x e body p)).plan env).AsksFor s (.forLoop unit x count body i) u ↔
      count = Number.countBelow (v.toNumber t.heap) ∧ i = 0 ∧ u = t := by
  rw [plan, Plan.asksFor_bind]
  constructor
  · rintro (asked | ⟨a, w, ends, rest⟩)
    · cases (Plan.asksFor_ask.1 asked).1
    · obtain ⟨same, rfl⟩ := he.unique ends
      cases same
      obtain ⟨count, w, read, asked⟩ := Plan.asksFor_step_bind.1 rest
      cases read
      obtain ⟨same, rfl⟩ := Plan.asksFor_ask.1 asked
      cases same
      exact ⟨rfl, rfl, rfl⟩
  · rintro ⟨rfl, rfl, rfl⟩
    refine .inr ⟨v, u, he, Plan.asksFor_step_bind.2 ⟨_, u, rfl, ?_⟩⟩
    exact Plan.asksFor_ask.2 ⟨rfl, rfl⟩

theorem enters_for {k : Nat} (he : (expr e).Ends env s (.ok v) t) :
    Enters env unit x body (.stmt unit (.for_ x e body p)) s k u ↔
      Enters env unit x body
        (.forLoop unit x (Number.countBelow (v.toNumber t.heap)) body 0) t k u := by
  constructor
  · intro enters
    cases enters with
    | loop asked rest =>
      obtain ⟨rfl, -, rfl⟩ := (for_asksFor he).1 asked
      exact rest
  · intro rest
    exact .loop ((for_asksFor he).2 ⟨rfl, rfl, rfl⟩) rest

end Job

theorem for_counts {unit : Nat} {x : String} {e : Expr} {body : List Stmt} {p : Position}
    {s t : State σ} {v : Value} (he : (Job.expr e).Ends env s (.ok v) t)
    (reach : Number.InReach (v.toNumber t.heap)) :
    let loop := Job.stmt unit (.for_ x e body p)
    let run := Job.block unit body
    ∃ count, Number.Counter (v.toNumber t.heap) count ∧
      (∀ k u, Enters env unit x body loop s k u ↔
        k < count ∧ ∃ w, Counted env unit x body t k w ∧ u = w.counting x k) ∧
      (∀ r u, loop.Ends env s r u ↔
        r = .ok () ∧ Counted env unit x body t count u ∨
        ∃ k < count, ∃ w q, Counted env unit x body t k w ∧
          run.Ends env (w.counting x k) q u ∧ Leaves q r) ∧
      ((∀ k u, Enters env unit x body loop s k u → ∃ q w, run.Ends env u q w ∧ GoesOn q) →
        (∀ k, k < count ↔ ∃ u, Enters env unit x body loop s k u) ∧
        ∃ u, Counted env unit x body t count u ∧ loop.Ends env s (.ok ()) u) ∧
      (count = 0 → loop.Ends env s (.ok ()) t) := by
  intro loop run
  have limit := reach.countBelow_le
  have enters (k : Nat) (u : State σ) : Enters env unit x body loop s k u ↔
      k < Number.countBelow (v.toNumber t.heap) ∧
        ∃ w, Counted env unit x body t k w ∧ u = w.counting x k := by
    rw [Job.enters_for he, Counted.enters_iff limit .start (Nat.zero_le _), Nat.zero_add]
  have completed {u : State σ}
      (counted : Counted env unit x body t (Number.countBelow (v.toNumber t.heap)) u) :
      loop.Ends env s (.ok ()) u := by
    rw [Job.ends_for he, counted.ends_iff limit (Nat.le_refl _)]
    exact .inr ((Job.ends_forLoop_done (Nat.le_refl _)).2 ⟨rfl, rfl⟩)
  refine ⟨_, reach.counter, enters, fun r u => ?_, fun goesOn => ?_, fun none => ?_⟩
  · constructor
    · intro ends
      exact Counted.of_ends limit .start (Nat.zero_add _) ((Job.ends_for he).1 ends)
    · rintro (⟨rfl, counted⟩ | ⟨k, hk, w, q, counted, ends, leaves⟩)
      · exact completed counted
      · rw [Job.ends_for he, counted.ends_iff limit hk.le, Job.ends_forLoop hk]
        exact .inr ⟨q, u, ends, .inr ⟨leaves, rfl⟩⟩
  · have reached (k : Nat) (hk : k ≤ Number.countBelow (v.toNumber t.heap)) :
        ∃ w, Counted env unit x body t k w := by
      induction k with
      | zero => exact ⟨t, .start⟩
      | succ k ih =>
        obtain ⟨w, counted⟩ := ih (Nat.le_of_succ_le hk)
        obtain ⟨q, u, ends, goes⟩ := goesOn k _ ((enters k _).2 ⟨hk, w, counted, rfl⟩)
        exact ⟨u, counted.next ends goes⟩
    refine ⟨fun k => ⟨fun hk => ?_, fun ⟨u, entered⟩ => ((enters k u).1 entered).1⟩, ?_⟩
    · obtain ⟨w, counted⟩ := reached k hk.le
      exact ⟨_, (enters k _).2 ⟨hk, w, counted, rfl⟩⟩
    · obtain ⟨u, counted⟩ := reached _ (Nat.le_refl _)
      exact ⟨u, counted, completed counted⟩
  · exact completed (none ▸ .start)

theorem for_counts_reassigned :
    let env : Embedding Unit := .plain (.silent Unit)
    let s := State.initial env .standard ()
    let x := Number.ofRun ['2', '.', '5']
    let count : Expr := .literal (.number x) ⟨1, 8⟩
    let body : List Stmt :=
      [.expr (.assign (.variable "i") (.literal (.number (Number.ofRun ['9'])) ⟨1, 17⟩) ⟨1, 13⟩)]
    let loop := Job.stmt 0 (.for_ "i" count body ⟨1, 1⟩)
    (Job.expr count).Ends env s (.ok (.number x)) s ∧ Number.InReach x ∧
      (∀ k, k < 3 ↔ ∃ u, Enters env 0 "i" body loop s k u) ∧ ∃ u, loop.Ends env s (.ok ()) u := by
  intro env s x count body loop
  have evaluated : (Job.expr count).Ends env s (.ok (.number x)) s := Job.ends_literal nofun
  have reach : Number.InReach x := .inr (by decide)
  have value : Number.value? x = some (5 / 2) := by
    have shape : Number.shape x = .finite false (5 * 2 ^ 50) (-51) := by decide
    rw [Number.value?_finite shape]
    norm_num
  have runs (u : State Unit) : (Job.block 0 body).Ends env u (.ok ())
      { u with bindings := u.bindings.insert "i" (.number (Number.ofRun ['9'])) } := by
    refine ⟨nofun, 5, ?_⟩
    simp only [Job.run, body, Evaluator.block, Evaluator.stmt, Evaluator.expr, Evaluator.place]
    rfl
  obtain ⟨n, counter, -, -, completed, -⟩ :=
    @for_counts Unit env 0 "i" count body ⟨1, 1⟩ s s (.number x) evaluated reach
  obtain rfl : n = 3 := by
    rw [counter.countsTo.eq_ceil value, Nat.ceil_eq_iff three_ne_zero]
    norm_num
  obtain ⟨entered, u, -, ends⟩ := completed fun k u _ => ⟨_, _, runs u, .ok⟩
  exact ⟨evaluated, reach, entered, u, ends⟩

end CanvasScript
