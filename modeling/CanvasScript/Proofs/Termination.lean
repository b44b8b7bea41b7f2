import CanvasScript.Proofs.Termination.Descent

namespace CanvasScript

open Weight (total)

variable {σ : Type} {P : Stmt → Prop} {bound : Nat}

theorem During.cost_le {host : Host σ} (hP : ∀ c body p, ¬ P (.while_ c body p)) {n k m : Nat}
    {j i : Job} {s t : State σ} (hd : During (.plain host) n j s k m i t) (h : j.Tame P bound)
    (hs : s.Tame P bound)
    (hc : ∀ {k m i t}, During (.plain host) n j s k (m + 1) i t → i.Tame P bound →
      i.CountInReach (.plain host) m t) :
    i.Tame P bound ∧ t.Tame P bound ∧ n + i.cost bound t ≤ m + j.cost bound s := by
  induction hd with
  | self => exact ⟨h, hs, Nat.le_refl _⟩
  | within ha _ ih =>
    obtain ⟨hi, ht, lt⟩ := Job.asks_cheaper hP h hs (hc .self h) ha
    obtain ⟨hi', ht', le⟩ := ih hi ht fun hd => hc (.within ha hd)
    exact ⟨hi', ht', by omega⟩

theorem Job.run_ne_outOfFuel {host : Host σ} (hP : ∀ c body p, ¬ P (.while_ c body p)) {n : Nat}
    {j : Job} {s : State σ} (h : j.Tame P bound) (hs : s.Tame P bound)
    (hc : ∀ {k m i t}, During (.plain host) n j s k (m + 1) i t → i.Tame P bound →
      i.CountInReach (.plain host) m t)
    (hn : j.cost bound s < n) : (j.run (.plain host) n s).1 ≠ .error .outOfFuel := by
  intro ho
  obtain ⟨k, i, t, hd⟩ := Job.exists_during_zero rfl ho
  obtain ⟨-, -, le⟩ := hd.cost_le hP h hs hc
  omega

theorem Ending.of_eq_outOfFuel {r : Except Stop Unit} (h : Ending.of r = .outOfFuel) :
    r = .error .outOfFuel := by
  match r with
  | .error .outOfFuel => rfl
  | .ok () | .error (.interrupt .exit) | .error (.interrupt (.error _))
  | .error (.interrupt (.returned _)) | .error (.interrupt .break_)
  | .error (.interrupt .continue_) => cases h

def Program.Halts (p : Program) (env : Embedding σ) (s : State σ) : Prop :=
  ∃ fuel ending t, ending ≠ .outOfFuel ∧ ∀ n, fuel ≤ n → p.run env n s = (ending, t)

/-- While the program runs from the state on, with whatever fuel, the counts of its loops are NaN or
at most `2 ^ 53`. -/
def Program.CountsInReach (p : Program) (env : Embedding σ) (s : State σ) : Prop :=
  ∀ n k m i t, During env n (.block p.unit p.statements) { s with depth := 0 } k (m + 1) i t →
    i.CountInReach env m t

theorem State.tame_of_compile {host : Host σ} {settings : Settings} {world : σ} {source : String}
    {r : Except (List Diagnostic) Program} {s : State σ}
    (h : (State.initial (.plain host) settings world).compile source = (r, s)) :
    { s with depth := 0 }.Tame P bound := by
  have start : (State.initial (.plain host) settings world).Tame P bound :=
    State.initial_holds Value.onlyFunctions_tame host settings trivial
      fun _ _ _ _ _ f hf => by cases hf
  unfold State.compile at h
  split at h <;> cases h <;> exact ⟨start.bindings, start.heap, start.world⟩

theorem Program.tame {p : Program} (h : ∀ t ∈ p.statements, t.Every P) :
    ∀ t ∈ p.statements, t.Tame P (total Stmt.weight p.statements) :=
  fun t ht => ⟨h t ht, Nat.le_of_lt (Weight.lt_total_of_mem Stmt.weight ht)⟩

theorem whileFree_halts (host : Host σ) (settings : Settings) (world : σ) (source : String)
    {p : Program} {s : State σ}
    (hp : (State.initial (.plain host) settings world).compile source = (.ok p, s))
    (free : ∀ t ∈ p.statements, t.WhileFree) (counts : p.CountsInReach (.plain host) s) :
    p.Halts (.plain host) s := by
  let job : Job := .block p.unit p.statements
  let fuel := job.cost (total Stmt.weight p.statements) { s with depth := 0 } + 1
  have ends : (job.run (.plain host) fuel { s with depth := 0 }).1 ≠ .error .outOfFuel :=
    Job.run_ne_outOfFuel (fun c body p h => h c body p rfl) (Program.tame free)
      (State.tame_of_compile hp) (fun hd _ => counts _ _ _ _ _ hd) (Nat.lt_succ_self _)
  refine ⟨fuel, _, (job.run (.plain host) fuel { s with depth := 0 }).2,
    fun h => ends (Ending.of_eq_outOfFuel h), fun n hn => ?_⟩
  have more := Job.run_mono hn ends
  exact congrArg (fun r => (Ending.of r.1, r.2)) more

structure Stmt.CountsFixed (s : Stmt) : Prop where
  ne_while : ∀ c body p, s ≠ .while_ c body p
  fixed : ∀ counter count body p, s = .for_ counter count body p →
    ∃ x q, count = .literal (.number x) q ∧ Number.InReach x

theorem Job.countInReach_of_fixed {env : Embedding σ} {n : Nat} {j : Job} {s : State σ}
    (h : j.Tame Stmt.CountsFixed bound) : j.CountInReach env n s := by
  unfold CountInReach
  split
  · obtain ⟨⟨⟨-, fixed⟩, -⟩, -⟩ := h
    obtain ⟨x, q, rfl, hx⟩ := fixed _ _ _ _ rfl
    intro v t hv
    cases n with
    | zero =>
      rw [Evaluator.expr] at hv
      cases hv
    | succ n =>
      simp only [Evaluator.expr] at hv
      cases hv
      exact hx
  · trivial

theorem Program.countsInReach_of_fixed {host : Host σ} {settings : Settings} {world : σ}
    {source : String} {p : Program} {s : State σ}
    (hp : (State.initial (.plain host) settings world).compile source = (.ok p, s))
    (h : ∀ t ∈ p.statements, t.Every Stmt.CountsFixed) : p.CountsInReach (.plain host) s :=
  fun _ _ _ _ _ hd => Job.countInReach_of_fixed
    (hd.cost_le (fun c body p h => h.ne_while c body p rfl) (Program.tame h)
      (State.tame_of_compile hp) fun _ => Job.countInReach_of_fixed).1

theorem selfCalls_halt :
    let host : Host Unit := .silent Unit
    let settings : Settings := ⟨.standard, false, false, .standard, 1000⟩
    let start := State.initial (.plain host) settings ()
    let loop : Stmt := .for_ "i" (.literal (.number (Number.ofRun ['2'])) ⟨1, 22⟩)
      [.expr (.call (.variable "g" ⟨1, 25⟩) [.variable "g" ⟨1, 27⟩] ⟨1, 25⟩)] ⟨1, 15⟩
    let p : Program := ⟨0, [.function "f" ["g"] [loop] ⟨1, 1⟩,
      .expr (.call (.variable "f" ⟨1, 39⟩) [.variable "f" ⟨1, 41⟩] ⟨1, 39⟩)]⟩
    let s := { start with units := 1 }
    start.compile "function f(g) for(i, 2) g(g); end end f(f);" = (.ok p, s) ∧
      (∀ t ∈ p.statements, t.WhileFree) ∧ p.CountsInReach (.plain host) s ∧
      p.Halts (.plain host) s := by
  intro host settings start loop p s
  have compiled : start.compile "function f(g) for(i, 2) g(g); end end f(f);" = (.ok p, s) := by
    have parsed : parseProgram "function f(g) for(i, 2) g(g); end end f(f);" .start =
        .ok p.statements := by rfl
    rw [State.compile, parsed]
    rfl
  have call (e : Expr) : (Stmt.expr e).Every Stmt.CountsFixed :=
    .intro ⟨nofun, nofun⟩ (List.forall_mem_nil _)
  have count : loop.CountsFixed := by
    refine ⟨nofun, fun counter count body p h => ?_⟩
    exact ⟨_, _, (Stmt.for_.inj h).2.1.symm, .inr (by decide)⟩
  have fixed : ∀ t ∈ p.statements, t.Every Stmt.CountsFixed :=
    List.forall_mem_cons.2 ⟨.intro ⟨nofun, nofun⟩ (List.forall_mem_singleton.2
      (.intro count (List.forall_mem_singleton.2 (call _)))), List.forall_mem_singleton.2 (call _)⟩
  have free : ∀ t ∈ p.statements, t.WhileFree :=
    fun t ht => (fixed t ht).mono fun _ h => h.ne_while
  have counts := Program.countsInReach_of_fixed compiled fixed
  exact ⟨compiled, free, counts, whileFree_halts host settings () _ compiled free counts⟩

end CanvasScript
