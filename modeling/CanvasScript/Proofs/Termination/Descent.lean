import CanvasScript.Proofs.CallDepth
import CanvasScript.Proofs.Termination.Counts
import CanvasScript.Proofs.Termination.Tame

namespace CanvasScript

open Weight (total)

variable {σ : Type} {P : Stmt → Prop} {bound : Nat}

namespace Plan

variable {host : Host σ} {n w : Nat} {α β : Type}

def Descends (P : Stmt → Prop) (bound n w : Nat) (x : Plan (.plain host) α) : Prop :=
  ∀ s k j t, s.Tame P bound → x.Asks (Job.run (.plain host) n) s k j t →
    t.Tame P bound ∧ j.Tame P bound ∧ j.weight < w

namespace Descends

theorem pure (a : α) : Descends P bound n w (Pure.pure a : Plan (.plain host) α) :=
  fun _ _ _ _ _ => nofun

theorem step (x : Step (.plain host) α) : Descends P bound n w (step x) := fun _ _ _ _ _ => nofun

theorem ask {j : Job} (hj : j.Tame P bound) (hw : j.weight < w) :
    Descends P bound n w (ask j : Plan (.plain host) j.Result) := by
  rintro s k i t hs ⟨-, rfl, rfl⟩
  exact ⟨hs, hj, hw⟩

theorem bind {Q : α → Prop} {x : Plan (.plain host) α} {f : α → Plan (.plain host) β}
    (hx : Descends P bound n w x)
    (keeps : Action.KeepsTame P bound Q (x.run (Job.run (.plain host) n)))
    (hf : ∀ a, Q a → Descends P bound n w (f a)) : Descends P bound n w (x >>= f) := by
  rintro s k j t hs (h | ⟨a, u, hr, h⟩)
  · exact hx s k j t hs h
  · have hu := keeps s hs
    rw [hr] at hu
    exact hf a hu.2 u k j t hu.1 h

theorem step_bind {Q : α → Prop} {x : Step (.plain host) α} {f : α → Plan (.plain host) β}
    (keeps : Action.KeepsTame P bound Q x.run)
    (hf : ∀ a, Q a → Descends P bound n w (f a)) : Descends P bound n w (Plan.step x >>= f) :=
  (step x).bind keeps hf

theorem ask_bind {j : Job} {f : j.Result → Plan (.plain host) β} (hj : j.Tame P bound)
    (hw : j.weight < w) (hf : ∀ a, j.Yields P bound a → Descends P bound n w (f a)) :
    Descends P bound n w (Plan.ask j >>= f) :=
  (ask hj hw).bind (Job.keeps_tame host n hj) hf

theorem loopBody_bind {unit : Nat} {body : List Stmt} {f : Bool → Plan (.plain host) β}
    (hb : ∀ t ∈ body, t.Tame P bound) (hw : (Job.block unit body).weight < w)
    (hf : ∀ a, Descends P bound n w (f a)) :
    Descends P bound n w (Plan.loopBody (Plan.ask (.block unit body)) >>= f) := by
  have asks : Descends P bound n w
      (.loopBody (.ask (.block unit body)) : Plan (.plain host) Bool) :=
    ask (j := .block unit body) hb hw
  have keeps := Job.keeps_tame host n (j := .block unit body) hb
  exact asks.bind (keeps.loopBody fun _ => trivial) fun a _ => hf a

end Descends

end Plan

namespace Job

open Plan (Descends)

variable {host : Host σ} {n : Nat}

theorem descends_expr (e : Expr) :
    ((expr e).plan (.plain host)).Descends P bound n e.weight := by
  have hV : Value.OnlyFunctions (Value.Tame P bound) := Value.onlyFunctions_tame
  have hw := e.weight_ge
  match e with
  | .literal (.text s) p =>
    simp only [plan]
    split
    · refine .ask_bind (fun source => Marker.not_mem_of_expr_mem) ?_ fun t _ => .pure _
      rw [weight, Expr.weight_eq, Expr.rootWeight]
      omega
    · exact .pure _
  | .literal (.number _) p | .literal (.bool _) p | .literal .null p | .literal .undefined p =>
    exact .pure _
  | .variable name p => exact .step _
  | .assign target value p =>
    simp only [Expr.parts, Weight.total_append, Weight.total_cons, Weight.total_nil] at hw
    refine .ask_bind (j := expr value) trivial (by simp only [weight]; omega) fun v hv => ?_
    refine .ask_bind (j := place target) trivial (by simp only [weight]; omega) fun dest _ => ?_
    exact .step_bind (.writePlace hV hv) fun _ _ => .pure _
  | .compound op target value p =>
    simp only [Expr.parts, Weight.total_append, Weight.total_cons, Weight.total_nil] at hw
    refine .ask_bind (j := place target) trivial (by simp only [weight]; omega) fun dest _ => ?_
    refine .step_bind (.readPlace hV) fun old _ => ?_
    refine .ask_bind (j := expr value) trivial (by simp only [weight]; omega) fun v hv => ?_
    refine .step_bind (.onHeap fun h => hV.arith h op old v) fun new hn => ?_
    exact .step_bind (.writePlace hV hn) fun _ _ => .pure _
  | .update op name p => exact .step _
  | .unary op operand p =>
    simp only [Expr.parts, Weight.total_cons, Weight.total_nil] at hw
    exact .ask_bind (j := expr operand) trivial (by simp only [weight]; omega) fun v _ => .step _
  | .binary op left right p =>
    simp only [Expr.parts, Weight.total_cons, Weight.total_nil] at hw
    refine .ask_bind (j := expr left) trivial (by simp only [weight]; omega) fun a _ => ?_
    exact .ask_bind (j := expr right) trivial (by simp only [weight]; omega) fun b _ => .step _
  | .call callee args p =>
    simp only [Expr.parts, Weight.total_cons] at hw
    refine .ask_bind (j := expr callee) trivial (by simp only [weight]; omega) fun f hf => ?_
    refine .ask_bind (j := exprs args) trivial (by simp only [weight]; omega) fun vs hvs => ?_
    split
    · exact .ask (j := call f vs p.line) ⟨hf, hvs⟩ (by simp only [weight]; omega)
    · exact .step _
  | .member owner property p =>
    simp only [Expr.parts, Weight.total_cons, Weight.total_nil] at hw
    exact .ask_bind (j := expr owner) trivial (by simp only [weight]; omega) fun v _ => .step _
  | .index owner index p =>
    simp only [Expr.parts, Weight.total_cons, Weight.total_nil] at hw
    refine .ask_bind (j := expr owner) trivial (by simp only [weight]; omega) fun v _ => ?_
    exact .ask_bind (j := expr index) trivial (by simp only [weight]; omega) fun i _ => .step _
  | .array items p =>
    simp only [Expr.parts] at hw
    exact .ask_bind (j := exprs items) trivial (by simp only [weight]; omega) fun vs _ => .step _
  | .object ps p =>
    simp only [Expr.parts] at hw
    have none : Tame P bound (properties ps .empty) := List.forall_mem_nil _
    exact .ask_bind none (by simp only [weight]; omega) fun fields _ => .step _

theorem descends_stmt (hP : ∀ c body p, ¬ P (.while_ c body p)) (unit : Nat) (s : Stmt)
    (h : s.Tame P bound)
    (hf : ∀ counter count body p, s ≠ .for_ counter count body p) :
    ((stmt unit s).plan (.plain host)).Descends P bound n s.weight := by
  have hw := s.weight_eq
  match s with
  | .function name params body p => exact .step _
  | .return_ none p => exact .step _
  | .return_ (some e) p =>
    simp only [Stmt.exprs, Weight.total_cons] at hw
    exact .ask_bind (j := expr e) trivial (by simp only [weight]; omega) fun v _ => .step _
  | .branch c body elseifs otherwise p =>
    refine .ask (j := branches unit ((c, body) :: elseifs) otherwise) h.within ?_
    simp only [hw, weight, Stmt.rootWeight, Stmt.exprs, Stmt.within, Stmt.inner, List.map_cons,
      List.flatMap_cons]
    omega
  | .while_ c body p =>
    obtain ⟨⟨while_, -⟩, -⟩ := h
    exact absurd while_ (hP c body p)
  | .for_ counter count body p => exact absurd rfl (hf counter count body p)
  | .break_ p | .continue_ p => exact .step _
  | .expr e =>
    simp only [Stmt.exprs, Weight.total_cons] at hw
    exact .ask_bind (j := expr e) trivial (by simp only [weight]; omega) fun v _ => .pure _

theorem descends_branches (unit : Nat) (bs : List (Expr × List Stmt))
    (otherwise : Option (List Stmt)) (h : (branches unit bs otherwise).Tame P bound) :
    ((branches unit bs otherwise).plan (.plain host)).Descends P bound n
      (branches unit bs otherwise).weight := by
  match bs, otherwise with
  | [], none => exact .pure _
  | [], some body =>
    refine .ask (j := block unit body) h ?_
    simp [weight]
  | (c, body) :: rest, otherwise =>
    rw [Tame, List.flatMap_cons, List.append_assoc, List.forall_mem_append] at h
    refine .ask_bind (j := expr c) trivial ?_ fun v _ => ?_
    · simp only [weight, List.map_cons, Weight.total_cons]
      omega
    split
    · refine .ask (j := block unit body) h.1 ?_
      simp only [weight, List.flatMap_cons, Weight.total_append]
      omega
    · refine .ask (j := branches unit rest otherwise) h.2 ?_
      simp only [weight, List.map_cons, List.flatMap_cons, Weight.total_cons, Weight.total_append]
      omega

theorem descends_forLoop (unit : Nat) (counter : String) (count : Nat) (body : List Stmt) (k : Nat)
    (h : (forLoop unit counter count body k).Tame P bound) :
    ((forLoop unit counter count body k).plan (.plain host)).Descends P bound n
      (forLoop unit counter count body k).weight := by
  simp only [plan]
  split
  · rename_i hk
    refine .step_bind (.setVariable (Value.onlyFunctions_tame.data _ rfl)) fun _ _ => ?_
    refine .loopBody_bind h.2 (by simp only [weight]; omega) fun goesOn => ?_
    split
    -- the counter moves on, as it has not got to where adding one changes nothing
    · have next : Evaluator.nextCount k = k + 1 := Nat.min_eq_left (Nat.lt_of_lt_of_le hk h.1)
      refine .ask (j := forLoop unit counter count body _) h ?_
      simp only [weight, next]
      omega
    · exact .pure _
  · exact .pure _

theorem descends_interpolated (p : Position) (segments : List Segment) (done : String)
    (h : (interpolated p segments done).Tame P bound) :
    ((interpolated p segments done).plan (.plain host)).Descends P bound n
      (interpolated p segments done).weight := by
  match segments with
  | [] => exact .pure _
  | .text s :: rest =>
    refine .ask (j := interpolated p rest _) (fun t ht => h t (List.mem_cons_of_mem _ ht)) ?_
    simp only [weight, Weight.total_cons]
    omega
  | .expr source :: rest =>
    simp only [plan]
    split
    · exact .step _
    · rename_i e he
      have read := Segment.weight_of_parse he (h source List.mem_cons_self)
      refine .ask_bind (j := expr e) trivial ?_ fun v _ => ?_
      · simp only [weight, Weight.total_cons]
        omega
      refine .step_bind (.onHeap (Q := fun _ => True) fun _ => trivial) fun t _ => ?_
      refine .ask (j := interpolated p rest _) (fun t ht => h t (List.mem_cons_of_mem _ ht)) ?_
      simp only [weight, Weight.total_cons]
      omega

theorem descends (hP : ∀ c body p, ¬ P (.while_ c body p)) {j : Job} (h : j.Tame P bound)
    (hcall : ∀ f args line, j ≠ call (.function f) args line)
    (hfor : ∀ unit counter count body p, j ≠ stmt unit (.for_ counter count body p)) :
    (j.plan (.plain host)).Descends P bound n j.weight := by
  match j, h with
  | block unit [], _ => exact .pure _
  | block unit (s :: rest), h =>
    obtain ⟨hs, hr⟩ := List.forall_mem_cons.1 h
    refine .ask_bind (j := stmt unit s) hs ?_ fun _ _ => .ask (j := block unit rest) hr ?_ <;>
      simp only [weight, Weight.total_cons] <;> omega
  | stmt unit s, h =>
    exact descends_stmt hP unit s h fun counter count body p he =>
      hfor unit counter count body p (congrArg (stmt unit) he)
  | branches unit bs otherwise, h => exact descends_branches unit bs otherwise h
  | whileLoop unit c body, h => exact h.elim
  | forLoop unit counter count body k, h => exact descends_forLoop unit counter count body k h
  | expr e, _ => exact descends_expr e
  | exprs [], _ => exact .pure _
  | exprs (e :: es), _ =>
    refine .ask_bind (j := expr e) trivial ?_ fun v _ =>
      .ask_bind (j := exprs es) trivial ?_ fun vs _ => .pure _ <;>
      simp only [weight, Weight.total_cons] <;> omega
  | properties [] fields, _ => exact .pure _
  | properties ((key, e) :: rest) fields, h =>
    refine .ask_bind (j := expr e) trivial ?_ fun v hv =>
      .ask (j := properties rest _) (Fields.forall_set h key hv) ?_ <;>
      simp only [weight, List.map_cons, Weight.total_cons] <;> omega
  | interpolated p segments done, h => exact descends_interpolated p segments done h
  | place (.variable name), _ => exact .pure _
  | place (.member owner property), _ =>
    refine .ask_bind (j := expr owner) trivial ?_ fun v _ => .pure _
    simp only [weight, Target.parts, Weight.total_cons]
    omega
  | place (.index owner index), _ =>
    refine .ask_bind (j := expr owner) trivial ?_ fun v _ =>
      .ask_bind (j := expr index) trivial ?_ fun i _ => .pure _ <;>
      simp only [weight, Target.parts, Weight.total_cons] <;> omega
  | call (.function f) args line, _ => exact absurd rfl (hcall f args line)
  | call (.native (.builtin b)) args line, _ | call (.method receiver m) args line, _
  | call (.number _) args line, _ | call (.text _) args line, _ | call (.bool _) args line, _
  | call .null args line, _ | call .undefined args line, _ | call (.array _) args line, _
  | call (.object _) args line, _ => exact .step _
  | call (.native (.custom slot name suspends)) args line, _ =>
    simp only [plan]
    split <;> exact .step _

def CountInReach (env : Embedding σ) (n : Nat) : Job → State σ → Prop
  | stmt _ (.for_ _ count _ _), s => ∀ v t, Evaluator.expr env n count s = (.ok v, t) →
      Number.InReach (v.toNumber t.heap)
  | _, _ => True

def cost (bound : Nat) (j : Job) (s : State σ) : Nat :=
  (s.maxCallDepth - s.depth) * bound + j.weight

section

variable {s t : State σ} {k : Nat} {i : Job}

theorem asks_for {unit : Nat} {counter : String} {count : Expr} {body : List Stmt} {p : Position}
    (h : (Stmt.for_ counter count body p).Tame P bound) (hs : s.Tame P bound)
    (hc : (stmt unit (.for_ counter count body p)).CountInReach (.plain host) n s)
    (ha : ((stmt unit (.for_ counter count body p)).plan (.plain host)).Asks (run (.plain host) n)
      s k i t) :
    t.Tame P bound ∧ i.Tame P bound ∧ i.weight < (Stmt.for_ counter count body p).weight := by
  have hw := (Stmt.for_ counter count body p).weight_eq
  simp only [Stmt.rootWeight, Stmt.exprs, Stmt.within, Stmt.inner, Weight.total_cons] at hw
  rcases ha with ⟨-, rfl, rfl⟩ | ⟨v, u, hv, ha⟩
  · exact ⟨hs, trivial, by simp only [weight]; omega⟩
  · replace hv : run (.plain host) n (expr count) s = (.ok v, u) := hv
    have hu := keeps_tame host n (j := expr count) trivial s hs
    rw [hv] at hu
    rcases ha with ha | ⟨m, w, hm, -, rfl, rfl⟩
    · exact ha.elim
    · cases hm
      have hm := (hc v t hv).countBelow_le
      exact ⟨hu.1, ⟨hm, h.within⟩, by simp only [weight]; omega⟩

theorem call_cheaper {f : Function} {args : List Value} {line : Nat}
    (h : (call (.function f) args line).Tame P bound) (hs : s.Tame P bound)
    (hd : s.depth < s.maxCallDepth) :
    (Plan.entered f args s).Tame P bound ∧
      (block f.unit f.decl.body).cost bound (Plan.entered f args s) <
        (call (.function f) args line).cost bound s := by
  constructor
  · exact ⟨Evaluator.bindParams_every Value.onlyFunctions_tame h.2 _ hs.bindings [], hs.heap,
      hs.world⟩
  · have light := (h.1 f rfl).light
    rw [Stmt.weight_eq] at light
    simp only [FunctionDecl.stmt, Stmt.rootWeight, Stmt.exprs, Stmt.within] at light
    obtain ⟨left, hl⟩ : ∃ left, s.maxCallDepth - s.depth = left + 1 :=
      ⟨s.maxCallDepth - s.depth - 1, by omega⟩
    have hl' : s.maxCallDepth - (s.depth + 1) = left := by omega
    simp only [cost, Plan.entered, weight, hl, hl', Nat.succ_mul]
    omega

theorem asks_cheaper (hP : ∀ c body p, ¬ P (.while_ c body p)) {j : Job} (h : j.Tame P bound)
    (hs : s.Tame P bound) (hc : j.CountInReach (.plain host) n s)
    (ha : (j.plan (.plain host)).Asks (run (.plain host) n) s k i t) :
    i.Tame P bound ∧ t.Tame P bound ∧ i.cost bound t < j.cost bound s := by
  by_cases hcall : ∃ f args line, j = call (.function f) args line
  · obtain ⟨f, args, line, rfl⟩ := hcall
    obtain ⟨hd, rfl, rfl, rfl⟩ := asks_of_call.1 ha
    exact ⟨(h.1 f rfl).within, call_cheaper h hs hd⟩
  · have free : ∀ f args line, j ≠ call (.function f) args line := by simpa using hcall
    have lighter : t.Tame P bound ∧ i.Tame P bound ∧ i.weight < j.weight := by
      by_cases hfor : ∃ unit counter count body p, j = stmt unit (.for_ counter count body p)
      · obtain ⟨unit, counter, count, body, p, rfl⟩ := hfor
        exact asks_for h hs hc ha
      · exact descends hP h free (by simpa using hfor) s k i t hs ha
    obtain ⟨ht, hi, hw⟩ := lighter
    -- no body is entered and no host function of the embedding program can set the limit
    have depth : State.Gauge (.plain host) State.depth := State.gauge_depth nofun
    have limit : State.Gauge (.plain host) State.maxCallDepth := State.gauge_maxCallDepth rfl
    refine ⟨hi, ht, ?_⟩
    rw [cost, cost, ha.gauge depth (run_gauge depth n), ha.gauge limit (run_gauge limit n),
      (plan_callFree free).eq_zero ha]
    exact Nat.add_lt_add_left hw _

end

end Job

end CanvasScript
