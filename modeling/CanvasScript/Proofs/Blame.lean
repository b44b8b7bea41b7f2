import CanvasScript.Host.Extras
import CanvasScript.Proofs.Blame.Raised
import CanvasScript.Proofs.Contract.Runs
import Mathlib

namespace CanvasScript

open CanvasScript.Action (Blames Keeps)
open Evaluator (Upholds)

variable {σ : Type} {env : Embedding σ} {R : Region}

def Value.Among (S : Function → Prop) (v : Value) : Prop := ∀ f, v = .function f → S f

theorem Value.onlyFunctions_among (S : Function → Prop) : OnlyFunctions (Among S) := by
  constructor
  · rintro v hv f rfl
    cases hv
  · exact fun _ _ _ => nofun

/-- The embedding program blames no lines, and it hands a script no script functions but those that
it got from it. `J S` says of a state of its own that the functions kept there are all in `S`. -/
structure Embedding.Neutral (env : Embedding σ) (J : (Function → Prop) → σ → Prop) : Prop where
  namesNoLine : env.NamesNoLine
  answer : ∀ S r world, J S world → J S (env.host.answer r world).2
  custom : ∀ S, ∀ c ∈ env.customs, ∀ args, (∀ v ∈ args, v.Among S) →
    Keeps (Value.Among S) (J S) (Value.Among S) (Stop.Within (Value.Among S) fun _ => True)
      (c.call args)

theorem Embedding.plain_neutral (host : Host σ) : (plain host).Neutral fun _ _ => True where
  namesNoLine _ hc := nomatch hc
  answer _ _ _ _ := trivial
  custom _ _ hc := nomatch hc

def Function.In (R : Region) (f : Function) : Prop := f.decl.stmt.In R

theorem Stmt.In.declared {s : Stmt} {d : FunctionDecl} (h : s.In R) (hd : s.Declares d) :
    d.stmt.In R := by
  induction hd with
  | self => exact h
  | within hm _ ih => exact ih (h.within _ hm)

theorem Value.admits_in {ss : List Stmt} (h : ∀ s ∈ ss, s.In R) (unit : Nat) :
    Value.Admits (Value.Among (Function.In R)) unit ss := by
  rintro t ht d hd f ⟨⟩
  exact (h t ht).declared hd

variable {J : (Function → Prop) → σ → Prop}

theorem Embedding.Neutral.upholds (hn : env.Neutral J) (R : Region) :
    Upholds env (Value.Among (Function.In R)) (J (Function.In R)) fun _ => True where
  values := Value.onlyFunctions_among _
  declared f hf := Value.admits_in (hf f rfl).within f.unit
  signals _ _ _ _ _ _ := .inr trivial
  builtin b args _ _ :=
    Builtin.call_keeps (Value.onlyFunctions_among _) b args fun r _ => hn.answer _ r
  custom := hn.custom _

theorem State.initial_among (env : Embedding σ) (settings : Settings) {world : σ}
    (hw : ∀ S, J S world) (S : Function → Prop) :
    (State.initial env settings world).Holds (Value.Among S) (J S) :=
  State.initial_holds_customs (Value.onlyFunctions_among S) env settings (hw S)
    (fun _ _ _ _ _ _ => nofun) fun _ _ _ _ => nofun

theorem Job.In.of_asks {n k : Nat} {j i : Job} {s t : State σ} (hj : j.In R)
    (hc : j.Carries (Value.Among (Function.In R)))
    (ha : (j.plan env).Asks (Job.run env n) s k i t) : i.In R := by
  by_cases call : ∃ f args line, j = .call (.function f) args line
  · obtain ⟨f, args, line, rfl⟩ := call
    obtain ⟨-, -, rfl, -⟩ := Job.asks_of_call.1 ha
    exact (hc.1 f rfl).within
  · have free : (j.plan env).CallFree :=
      Job.plan_callFree fun f args line h => call ⟨f, args, line, h⟩
    rw [free.eq_zero ha] at ha
    exact (Job.plan_stays hj).asks ha

theorem During.in_of_holds (hn : env.Neutral J) {n k m : Nat} {j i : Job} {s t : State σ}
    (h : During env n j s k m i t)
    (hs : s.Holds (Value.Among (Function.In R)) (J (Function.In R)))
    (hc : j.Carries (Value.Among (Function.In R)))
    (hj : j.In R) : i.In R := by
  induction h with
  | self => exact hj
  | within ha _ ih =>
    obtain ⟨ht, hi⟩ := Job.hands (hn.upholds R) hc _ _ _ _ hs ha
    exact ih ht hi (hj.of_asks hc ha)

theorem Evaluator.interpolated_plain {segments : List Segment} (n : Nat) (p : Position)
    (done : String) (s : State σ) (e : RuntimeError) (h : ∀ source, .expr source ∉ segments) :
    ¬ Failed (interpolated env n p segments done s).1 e := by
  induction n generalizing segments done with
  | zero =>
    rw [interpolated]
    intro ended
    cases ended
  | succ n ih =>
    cases segments with
    | nil =>
      rw [interpolated]
      intro ended
      cases ended
    | cons segment rest =>
      cases segment with
      | text t =>
        rw [interpolated]
        exact ih _ fun source hm => h source (List.mem_cons_of_mem _ hm)
      | expr source => exact absurd List.mem_cons_self (h source)

theorem Evaluator.brace_mem_of_failed {n : Nat} {text : String} {p : Position} {s : State σ}
    {e : RuntimeError} (h : Failed (expr env n (.literal (.text text) p) s).1 e) :
    '}' ∈ text.toList := by
  by_contra quiet
  have plain (source : String) : .expr source ∉ Marker.segments text := by
    rw [Marker.segments, Marker.segmentsFrom_quiet quiet]
    exact Marker.not_mem_flush source _
  cases n with
  | zero =>
    rw [expr] at h
    cases h
  | succ n =>
    rw [expr] at h
    split at h
    · rw [Action.bind_apply] at h
      rcases hr : interpolated env n p (Marker.segments text) "" s with ⟨stop | t, u⟩
      · rw [hr] at h
        cases h
        exact interpolated_plain n p "" s e plain (by rw [hr])
      · rw [hr] at h
        cases h
    · cases h

theorem State.compile_eq_ok {s t : State σ} {source : String} {p : Program}
    (h : s.compile source = (.ok p, t)) :
    (∃ ts, TokenStream.ofSource source .start = .ok ts ∧ ts.program = .ok p.statements) ∧
      t = { s with units := s.units + 1 } := by
  unfold State.compile at h
  split at h
  · rename_i body parsed
    cases h
    obtain ⟨ts, scanned, parsed⟩ := Parse.ok_of_bind parsed
    exact ⟨⟨ts, scanned, Parse.ok_of_mapError parsed⟩, rfl⟩
  · cases h

theorem During.in_region (hn : env.Neutral J) {settings : Settings} {world : σ}
    (hw : ∀ S, J S world) {source : String} {p : Program} {s : State σ}
    (hp : (State.initial env settings world).compile source = (.ok p, s)) :
    ∃ ts, TokenStream.ofSource source .start = .ok ts ∧ ∀ {n k m i t},
      During env n (.block p.unit p.statements) { s with depth := 0 } k m i t → i.In ts.region := by
  obtain ⟨⟨ts, scanned, parsed⟩, rfl⟩ := State.compile_eq_ok hp
  have body : ∀ t ∈ p.statements, t.In ts.region := TokenStream.program_in ts.in_region parsed
  refine ⟨ts, scanned, fun hd => ?_⟩
  have start := State.initial_among env settings hw (Function.In ts.region)
  exact hd.in_of_holds hn ⟨start.bindings, start.heap, start.world⟩ (Value.admits_in body _) body

theorem Ending.failed_of_eq {r : Except Stop Unit} {e : RuntimeError}
    (h : Ending.of r = .failed e) : Failed r e := by
  match r, h with
  | .error (.interrupt (.error _)), rfl => rfl

structure BlamesSource (env : Embedding σ) (fuel : Nat) (source : String) (s : State σ) : Prop where
  ended : ∀ e, (interpret env fuel source s).1 = .ended (.failed e) →
    (∃ ts, TokenStream.ofSource source .start = .ok ts ∧
      ∃ t ∈ ts.tokens, t.position.line = e.line) ∧
      0 < e.line ∧ e.line ≤ lineCount source.toList
  /-- The text whose evaluation fails, at any time of the run, is a token of the source. The error
  is blamed on the line that it begins on, unless it comes from the body of a script function that
  was called in between. -/
  marker : ∀ p t, s.compile source = (.ok p, t) → ∀ k m text q u e,
    During env fuel (.block p.unit p.statements) { t with depth := 0 } k m
      (.expr (.literal (.text text) q)) u →
    Failed (Evaluator.expr env m (.literal (.text text) q) u).1 e →
    (∃ ts, TokenStream.ofSource source .start = .ok ts ∧ ⟨.text text, q⟩ ∈ ts.tokens) ∧
      (e.line = q.line ∨ ∃ l n i v,
        During env m (.expr (.literal (.text text) q)) u (l + 1) n i v ∧ Failed (i.run env n v).1 e)

theorem blames_source {J : (Function → Prop) → σ → Prop} (hn : env.Neutral J) (settings : Settings)
    {world : σ} (hw : ∀ S, J S world) (fuel : Nat) (source : String) :
    BlamesSource env fuel source (State.initial env settings world) where
  ended e h := by
    unfold interpret at h
    split at h
    · cases h
    · rename_i p s hp
      injection h with h
      have failed :
          Failed ((Job.block p.unit p.statements).run env fuel { s with depth := 0 }).1 e :=
        Ending.failed_of_eq h
      obtain ⟨ts, scanned, stands⟩ := During.in_region hn hw hp
      obtain ⟨k, m, i, t, hd, -, origin⟩ := Job.exists_origin hn.namesNoLine failed
      obtain ⟨token, hm, line⟩ := origin ts.region (stands hd)
      refine ⟨⟨ts, scanned, token, hm, line⟩, ?_⟩
      rw [← line]
      exact TokenStream.line_of_mem scanned hm
  marker p t hp k m text q u e hd failed := by
    obtain ⟨ts, scanned, stands⟩ := During.in_region hn hw hp
    have brace := Evaluator.brace_mem_of_failed failed
    refine ⟨⟨ts, scanned, (stands hd : Expr.In _ _).text.resolve_right (not_not_intro brace)⟩, ?_⟩
    obtain ⟨k, n, i, v, hi, failed, origin⟩ :=
      Job.exists_origin (j := .expr (.literal (.text text) q)) hn.namesNoLine failed
    cases k with
    | zero =>
      have here : (Expr.literal (.text text) q).In (.onLine q.line) :=
        .intro rfl (fun _ _ _ => trivial) (List.forall_mem_nil _)
      exact .inl (origin _ (hi.in_of_zero here))
    | succ l => exact .inr ⟨l, n, i, v, hi, failed⟩

theorem failure_in_marker_blamed :
    let env : Embedding Unit := ⟨.silent Unit, [Extras.fail]⟩
    let source := "\n\"it ${fail()}\";"
    let start := State.initial env .standard ()
    env.Neutral (fun _ _ => True) ∧
      (interpret env 20 source start).1 = .ended (.failed ⟨2, .custom "undefined"⟩) ∧
      BlamesSource env 20 source start := by
  intro env source start
  have neutral : env.Neutral (fun _ _ => True) := by
    refine ⟨fun c hc args => ?_, fun _ _ _ _ => trivial, fun S c hc args _ => ?_⟩
    · rw [List.mem_singleton.1 hc]
      exact (Blames.onHeap _).bind fun _ => .fail _
    · rw [List.mem_singleton.1 hc]
      exact (Keeps.onHeap (Q := fun _ => True) fun _ => trivial).bind fun _ _ => .interrupt trivial
  have parsed : parseProgram source .start =
      .ok [.expr (.literal (.text "it ${fail()}") ⟨2, 1⟩)] := by
    cbv
  have marker : Marker.parse "fail()" ⟨2, 1⟩ =
      .ok (.call (.variable "fail" ⟨2, 1⟩) [] ⟨2, 1⟩) := by
    rfl
  have segments : Marker.segments "it ${fail()}" = [.text "it ", .expr "fail()"] := by
    rfl
  let s : State Unit := { start with units := 1, depth := 0 }
  have bound : s.bindings["fail"]? = some (.native (.custom 0 "fail" false)) :=
    Std.HashMap.getElem?_insert_self
  let raised : RuntimeError := ⟨2, .custom "undefined"⟩
  have call : Evaluator.expr env 15 (.call (.variable "fail" ⟨2, 1⟩) [] ⟨2, 1⟩) s =
      (.error (.interrupt (.error raised)), s) := by
    have callable : (Value.native (.custom 0 "fail" false)).isCallable = true := rfl
    simp only [Evaluator.expr, Evaluator.exprs, Action.bind_apply, Action.variable_, bound,
      Action.pure_apply, callable, if_true, Evaluator.call]
    rfl
  have text : Evaluator.interpolated env 17 ⟨2, 1⟩ [.text "it ", .expr "fail()"] "" s =
      (.error (.interrupt (.error raised)), s) := by
    simp only [Evaluator.interpolated, marker, Action.bind_apply, call]
  have run : Evaluator.block env 20 0 [.expr (.literal (.text "it ${fail()}") ⟨2, 1⟩)] s =
      (.error (.interrupt (.error raised)), s) := by
    have holds : Evaluator.mayHoldMarker "it ${fail()}" = true :=
      String.contains_bool_eq.trans (by decide)
    simp only [Evaluator.block, Evaluator.stmt, Evaluator.expr, holds, segments, if_true,
      Action.bind_apply, text]
  refine ⟨neutral, ?_, blames_source neutral .standard (fun _ => trivial) 20 source⟩
  rw [interpret, State.compile, parsed]
  exact congrArg (fun r => Interpreted.ended (Ending.of r.1)) run

end CanvasScript
