import CanvasScript.Proofs.Blame.Regions
import CanvasScript.Proofs.Evaluations.Values

namespace CanvasScript

variable {σ α β : Type} {env : Embedding σ} {R : Region}

abbrev Failed (r : Except Stop α) (e : RuntimeError) : Prop := r = .error (.interrupt (.error e))

namespace Action

def Blames (line : Nat) (x : Action σ α) : Prop := ∀ s e, Failed (x s).1 e → e.line = line

namespace Blames

variable {line : Nat}

theorem pure (a : α) : Blames line (Pure.pure a : Action σ α) := fun _ _ => nofun

theorem onHeap (f : Heap → α) : Blames line (Action.onHeap f : Action σ α) := fun _ _ => nofun

theorem read (f : State σ → α) : Blames line (Action.read f) := fun _ _ => nofun

theorem ask (host : Host σ) (r : Request) : Blames line (Action.ask host r) := fun _ _ => nofun

theorem newArray (items : Array Value) : Blames line (Action.newArray items : Action σ Value) :=
  fun _ _ => nofun

theorem newObject (fields : Fields Value) :
    Blames line (Action.newObject fields : Action σ Value) := fun _ _ => nofun

theorem fail (f : Failure) : Blames line (Action.fail line f : Action σ α) := by
  rintro s e ⟨⟩
  rfl

theorem ofExcept (r : Except Failure α) :
    Blames line (Action.ofExcept line r : Action σ α) := by
  cases r with
  | ok a => exact .pure a
  | error f => exact .fail f

theorem bind {x : Action σ α} {f : α → Action σ β} (hx : Blames line x)
    (hf : ∀ a, Blames line (f a)) : Blames line (x >>= f) := by
  intro s e h
  rw [bind_apply] at h
  rcases hr : x s with ⟨stop | a, t⟩
  · rw [hr] at h
    cases h
    exact hx s e (by rw [hr])
  · rw [hr] at h
    exact hf a t e h

theorem attributed {x : Action σ α} (hx : Blames 0 x) :
    Blames line (Action.attributed line x) := by
  intro s e h
  unfold Action.attributed at h
  rcases hr : x s with ⟨r, t⟩
  rw [hr] at h
  match r, h with
  | .error (.interrupt (.error d)), h =>
    cases h
    have none : d.line = 0 := hx s d (by rw [hr])
    rw [RuntimeError.attribute, if_pos none]

theorem edit (find : Heap → Except Failure Place.Edit) :
    Blames line (Action.edit line find : Action σ Unit) := by
  intro s e h
  unfold Action.edit at h
  split at h
  · cases h
  · cases h
    rfl

theorem readPlace (p : Place) : Blames line (Action.readPlace p line : Action σ Value) := by
  intro s e h
  match p with
  | .variable name =>
    simp only [Action.readPlace, Action.variable_] at h
    split at h
    · cases h
    · cases h
      rfl
  | .member owner property => exact ofExcept (Place.readMember s.heap owner property) s e h
  | .index owner index => exact ofExcept (Place.readIndex s.heap owner index) s e h

theorem writePlace (p : Place) (v : Value) :
    Blames line (Action.writePlace p v line : Action σ Unit) := by
  match p with
  | .variable name => exact fun _ _ => nofun
  | .member owner property => exact edit _
  | .index owner index => exact edit _

theorem callMethod (m : Method) (receiver : Value) (args : List Value) :
    Blames line (Action.callMethod m receiver args line : Action σ Value) := by
  intro s e h
  unfold Action.callMethod at h
  split at h
  · cases h
  · cases h
    rfl

end Blames

end Action

open CanvasScript.Action (Blames)

theorem Builtin.madeOf_blames (host : Host σ) : MadeOf host fun _ => Blames 0 where
  pure := .pure
  bind := .bind
  onHeap := .onHeap
  read := .read
  newArray := .newArray
  entry d := .newObject d.fields
  ask := .ask host
  fail := .fail
  exit := fun _ _ => nofun

def Embedding.NamesNoLine (env : Embedding σ) : Prop :=
  ∀ c ∈ env.customs, ∀ args, Blames 0 (c.call args)

def Step.line? {α : Type} : Step env α → Option Nat
  | interrupt (.error e) => some e.line
  | readPlace _ line => some line
  | writePlace _ _ line => some line
  | callMethod _ _ _ line => some line
  | builtin _ _ line => some line
  | custom _ _ _ line => some line
  | _ => none

theorem Step.line?_of_failed (hc : env.NamesNoLine) {x : Step env α} {s : State σ}
    {e : RuntimeError} (h : Failed (x.run s).1 e) : x.line? = some e.line := by
  cases x with
  | interrupt i =>
    cases h
    rfl
  | onHeap | setVariable | update | newArray | newObject => cases h
  | readPlace p line => exact congrArg some (Blames.readPlace p s e h).symm
  | writePlace p v line => exact congrArg some (Blames.writePlace p v s e h).symm
  | callMethod m receiver args line =>
    exact congrArg some (Blames.callMethod m receiver args s e h).symm
  | builtin b args line =>
    have call := (Builtin.madeOf_blames env.host).call b args
    exact congrArg some (call.attributed s e h).symm
  | custom c hm args line => exact congrArg some ((hc c hm args).attributed s e h).symm

namespace Plan

variable {rec : (j : Job) → Action σ j.Result} {G : Job → Prop} {L : Nat → Prop}

def Stays (G : Job → Prop) (L : Nat → Prop) {α : Type} : Plan env α → Prop
  | pure _ => True
  | step x => ∀ line ∈ x.line?, L line
  | ask j => G j
  | bind x f => x.Stays G L ∧ ∀ a, (f a).Stays G L
  | loopBody body => body.Stays G L
  | inCall _ _ line body => L line ∧ body.Stays (fun _ => True) L

theorem stays_pure (a : α) : (Pure.pure a : Plan env α).Stays G L := trivial

theorem stays_step {x : Step env α} {line : Nat} (h : x.line? = some line) (hl : L line) :
    (step x).Stays G L := by
  intro l hm
  rw [h] at hm
  cases hm
  exact hl

theorem stays_free {x : Step env α} (h : x.line? = none) : (step x).Stays G L := by
  intro l hm
  rw [h] at hm
  cases hm

theorem stays_ask {j : Job} (h : G j) : (ask j : Plan env j.Result).Stays G L := h

theorem Stays.bind {x : Plan env α} {f : α → Plan env β} (hx : x.Stays G L)
    (hf : ∀ a, (f a).Stays G L) : (x >>= f).Stays G L := ⟨hx, hf⟩

theorem Stays.asks {x : Plan env α} (hx : x.Stays G L) {s t : State σ} {j : Job}
    (h : x.Asks rec s 0 j t) : G j := by
  induction x generalizing s with
  | pure | step => exact h.elim
  | ask i => exact h.2.1 ▸ hx
  | bind x g ihx ihg =>
    rcases h with h | ⟨a, u, -, h⟩
    · exact ihx hx.1 h
    · exact ihg a (hx.2 a) h
  | loopBody body ih => exact ih hx h
  | inCall f args line body =>
    obtain ⟨-, i, hi, -⟩ := h
    omega

theorem failed_loopBody {x : Action σ Unit} {s : State σ} {e : RuntimeError} :
    Failed (Action.loopBody x s).1 e ↔ Failed (x s).1 e := by
  unfold Action.loopBody
  rcases x s with ⟨r, t⟩
  match r with
  | .ok () | .error .outOfFuel | .error (.interrupt (.returned _)) | .error (.interrupt .break_)
  | .error (.interrupt .continue_) | .error (.interrupt .exit) | .error (.interrupt (.error _)) =>
    simp [Failed]

theorem failed_callResult {r : Except Stop Unit} {e : RuntimeError} :
    Failed (Evaluator.callResult r) e ↔ Failed r e := by
  match r with
  | .ok () | .error .outOfFuel | .error (.interrupt (.returned _)) | .error (.interrupt .break_)
  | .error (.interrupt .continue_) | .error (.interrupt .exit) | .error (.interrupt (.error _)) =>
    simp [Failed, Evaluator.callResult]

theorem Stays.failed (hc : env.NamesNoLine) {x : Plan env α} (hx : x.Stays G L) {s : State σ}
    {e : RuntimeError} (h : Failed (x.run rec s).1 e) :
    L e.line ∨ ∃ k j t, x.Asks rec s k j t ∧ Failed (rec j t).1 e := by
  induction x generalizing G s with
  | pure a => cases h
  | step x => exact .inl (hx _ (Step.line?_of_failed hc h))
  | ask j => exact .inr ⟨0, j, s, ⟨rfl, rfl, rfl⟩, h⟩
  | bind x g ihx ihg =>
    rw [run, Action.bind_apply] at h
    rcases hr : x.run rec s with ⟨stop | a, u⟩
    · rw [hr] at h
      cases h
      refine (ihx hx.1 (s := s) (by rw [hr])).imp_right ?_
      rintro ⟨k, j, t, ha, hj⟩
      exact ⟨k, j, t, .inl ha, hj⟩
    · rw [hr] at h
      refine (ihg a (hx.2 a) h).imp_right ?_
      rintro ⟨k, j, t, ha, hj⟩
      exact ⟨k, j, t, .inr ⟨a, u, hr, ha⟩, hj⟩
  | loopBody body ih => exact ih hx (failed_loopBody.1 h)
  | inCall f args line body ih =>
    by_cases hd : s.maxCallDepth ≤ s.depth
    · rw [run_inCall_refused rec hd] at h
      cases h
      exact .inl hx.1
    · rw [run_inCall_entered rec hd] at h
      refine (ih hx.2 (failed_callResult.1 h)).imp_right ?_
      rintro ⟨k, j, t, ha, hj⟩
      exact ⟨k + 1, j, t, ⟨Nat.not_le.1 hd, k, rfl, ha⟩, hj⟩

end Plan

namespace Job

def In (R : Region) : Job → Prop
  | block _ ss => ∀ s ∈ ss, s.In R
  | stmt _ s => s.In R
  | branches _ bs otherwise =>
    (∀ b ∈ bs, b.1.In R ∧ ∀ s ∈ b.2, s.In R) ∧ ∀ s ∈ otherwise.getD [], s.In R
  | whileLoop _ c body => c.In R ∧ ∀ s ∈ body, s.In R
  | forLoop _ _ _ body _ => ∀ s ∈ body, s.In R
  | expr e => e.In R
  | exprs es => ∀ e ∈ es, e.In R
  | properties ps _ => ∀ p ∈ ps, p.2.In R
  | interpolated p segments _ =>
    R.lines p.line ∧ ∀ source, .expr source ∈ segments → ∀ c ∈ source.toList, c ≠ '}' ∧ c ≠ '\n'
  | place target => target.In R
  | call _ _ line => R.lines line

open Plan

theorem stays_expression {L : Nat → Prop} {e : Expr} (h : e.In R) :
    (ask (expr e) : Plan env Value).Stays (In R) L := h

theorem stays_expr {e : Expr} (h : e.In R) : ((expr e).plan env).Stays (In R) R.lines := by
  have line := h.line
  have parts := h.parts
  match e with
  | .literal (.text s) p =>
    simp only [plan]
    split
    · exact (stays_ask ⟨line, fun _ => Marker.plain_of_expr_mem⟩).bind fun _ => stays_pure _
    · exact stays_pure _
  | .literal (.number _) p | .literal (.bool _) p | .literal .null p | .literal .undefined p =>
    exact stays_pure _
  | .variable name p => exact stays_step rfl line
  | .assign target value p =>
    obtain ⟨ht, hv⟩ := List.forall_mem_append.1 parts
    exact (stays_expression (List.forall_mem_singleton.1 hv)).bind fun v =>
      (stays_ask (j := place target) ht).bind fun dest =>
        (stays_step rfl line).bind fun _ => stays_pure _
  | .compound op target value p =>
    obtain ⟨ht, hv⟩ := List.forall_mem_append.1 parts
    exact (stays_ask (j := place target) ht).bind fun dest =>
      (stays_step rfl line).bind fun old =>
        (stays_expression (List.forall_mem_singleton.1 hv)).bind fun v =>
          (stays_free rfl).bind fun new => (stays_step rfl line).bind fun _ => stays_pure _
  | .update op name p => exact stays_free rfl
  | .unary op operand p =>
    exact (stays_expression (List.forall_mem_singleton.1 parts)).bind fun v =>
      stays_free rfl
  | .binary op left right p =>
    obtain ⟨hl, hr⟩ := List.forall_mem_cons.1 parts
    exact (stays_expression hl).bind fun a =>
      (stays_expression (List.forall_mem_singleton.1 hr)).bind fun b => stays_free rfl
  | .call callee args p =>
    obtain ⟨hc, ha⟩ := List.forall_mem_cons.1 parts
    refine (stays_expression hc).bind fun f => ?_
    refine (stays_ask (j := exprs args) ha).bind fun vs => ?_
    split
    · exact stays_ask (j := call f vs p.line) line
    · exact stays_step rfl line
  | .member owner property p =>
    exact (stays_expression (List.forall_mem_singleton.1 parts)).bind fun v =>
      stays_step rfl line
  | .index owner i p =>
    obtain ⟨ho, hi⟩ := List.forall_mem_cons.1 parts
    exact (stays_expression ho).bind fun v =>
      (stays_expression (List.forall_mem_singleton.1 hi)).bind fun w => stays_step rfl line
  | .array items p => exact (stays_ask (j := exprs items) parts).bind fun vs => stays_free rfl
  | .object ps p =>
    have values : (properties ps .empty).In R := fun q hq => parts q.2 (List.mem_map_of_mem hq)
    exact (stays_ask values).bind fun fields => stays_free rfl

theorem stays_stmt {unit : Nat} {s : Stmt} (h : s.In R) :
    ((stmt unit s).plan env).Stays (In R) R.lines := by
  have exprs := h.exprs
  have within := h.within
  match s with
  | .function name params body p => exact stays_free rfl
  | .return_ none p => exact stays_free rfl
  | .return_ (some e) p =>
    exact (stays_expression (List.forall_mem_singleton.1 exprs)).bind fun v => stays_free rfl
  | .branch c body elseifs otherwise p =>
    obtain ⟨hc, he⟩ := List.forall_mem_cons.1 exprs
    obtain ⟨hb, ho⟩ := List.forall_mem_append.1 within
    obtain ⟨hb, hes⟩ := List.forall_mem_append.1 hb
    refine stays_ask (j := branches unit ((c, body) :: elseifs) otherwise) ⟨?_, ho⟩
    refine List.forall_mem_cons.2 ⟨⟨hc, hb⟩, fun b hm => ⟨he b.1 (List.mem_map_of_mem hm), ?_⟩⟩
    exact fun t ht => hes t (List.mem_flatMap.2 ⟨b, hm, ht⟩)
  | .while_ c body p =>
    exact stays_ask (j := whileLoop unit c body) ⟨List.forall_mem_singleton.1 exprs, within⟩
  | .for_ counter count body p =>
    exact (stays_expression (List.forall_mem_singleton.1 exprs)).bind fun v =>
      (stays_free rfl).bind fun m => stays_ask (j := forLoop unit counter m body 0) within
  | .break_ p | .continue_ p => exact stays_free rfl
  | .expr e =>
    exact (stays_expression (List.forall_mem_singleton.1 exprs)).bind fun v => stays_pure _

theorem stays_interpolated {p : Position} {segments : List Segment} {done : String}
    (h : (interpolated p segments done).In R) :
    ((interpolated p segments done).plan env).Stays (In R) R.lines := by
  obtain ⟨line, plain⟩ := h
  match segments with
  | [] => exact stays_pure _
  | .text s :: rest =>
    exact stays_ask (j := interpolated p rest _)
      ⟨line, fun source hm => plain source (List.mem_cons_of_mem _ hm)⟩
  | .expr source :: rest =>
    simp only [plan]
    split
    · exact stays_step rfl line
    · rename_i e parsed
      have inside : e.In R := Marker.parse_in line (plain source List.mem_cons_self) parsed
      exact (stays_expression inside).bind fun v => (stays_free rfl).bind fun t =>
        stays_ask (j := interpolated p rest _)
          ⟨line, fun source hm => plain source (List.mem_cons_of_mem _ hm)⟩

theorem stays_call {callee : Value} {args : List Value} {line : Nat} (h : R.lines line) :
    ((call callee args line).plan env).Stays (In R) R.lines := by
  match callee with
  | .function f => exact ⟨h, trivial⟩
  | .native (.custom slot name suspends) =>
    simp only [plan]
    split <;> exact stays_step rfl h
  | .native (.builtin b) | .method receiver m | .number _ | .text _ | .bool _ | .null
  | .undefined | .array _ | .object _ => exact stays_step rfl h

theorem plan_stays {j : Job} (h : j.In R) : (j.plan env).Stays (In R) R.lines := by
  match j, h with
  | block unit [], _ => exact stays_pure _
  | block unit (s :: rest), h =>
    obtain ⟨hs, hr⟩ := List.forall_mem_cons.1 h
    exact (stays_ask (j := stmt unit s) hs).bind fun _ => stays_ask (j := block unit rest) hr
  | stmt unit s, h => exact stays_stmt h
  | branches unit [] none, _ => exact stays_pure _
  | branches unit [] (some body), h => exact stays_ask (j := block unit body) h.2
  | branches unit ((c, body) :: rest) otherwise, ⟨h, ho⟩ =>
    obtain ⟨⟨hc, hb⟩, hr⟩ := List.forall_mem_cons.1 h
    refine (stays_expression hc).bind fun v => ?_
    split
    · exact stays_ask (j := block unit body) hb
    · exact stays_ask (j := branches unit rest otherwise) ⟨hr, ho⟩
  | whileLoop unit c body, ⟨hc, hb⟩ =>
    refine (stays_expression hc).bind fun v => ?_
    split
    · refine Stays.bind (stays_ask (j := block unit body) hb) fun goesOn => ?_
      split
      · exact stays_ask (j := whileLoop unit c body) ⟨hc, hb⟩
      · exact stays_pure _
    · exact stays_pure _
  | forLoop unit counter count body k, h =>
    simp only [plan]
    split
    · refine (stays_free rfl).bind fun _ => ?_
      refine Stays.bind (stays_ask (j := block unit body) h) fun goesOn => ?_
      split
      · exact stays_ask (j := forLoop unit counter count body _) h
      · exact stays_pure _
    · exact stays_pure _
  | expr e, h => exact stays_expr h
  | exprs [], _ => exact stays_pure _
  | exprs (e :: es), h =>
    obtain ⟨he, hes⟩ := List.forall_mem_cons.1 h
    exact (stays_expression he).bind fun v =>
      (stays_ask (j := exprs es) hes).bind fun vs => stays_pure _
  | properties [] fields, _ => exact stays_pure _
  | properties ((key, e) :: rest) fields, h =>
    obtain ⟨he, hr⟩ := List.forall_mem_cons.1 h
    exact (stays_expression he).bind fun v => stays_ask (j := properties rest _) hr
  | interpolated p segments done, h => exact stays_interpolated h
  | place (.variable name), _ => exact stays_pure _
  | place (.member owner property), h =>
    exact (stays_expression (List.forall_mem_singleton.1 h)).bind fun v => stays_pure _
  | place (.index owner i), h =>
    obtain ⟨ho, hi⟩ := List.forall_mem_cons.1 h
    exact (stays_expression ho).bind fun v =>
      (stays_expression (List.forall_mem_singleton.1 hi)).bind fun w => stays_pure _
  | call callee args line, h => exact stays_call h

theorem exists_origin (hc : env.NamesNoLine) {n : Nat} {j : Job} {s : State σ} {e : RuntimeError}
    (h : Failed (j.run env n s).1 e) :
    ∃ k m i t, During env n j s k m i t ∧ Failed (i.run env m t).1 e ∧
      ∀ R : Region, i.In R → R.lines e.line := by
  induction n generalizing j s with
  | zero =>
    rw [run_zero] at h
    cases h
  | succ n ih =>
    by_cases asked : ∃ k i t, (j.plan env).Asks (run env n) s k i t ∧ Failed (i.run env n t).1 e
    · obtain ⟨k, i, t, ha, hi⟩ := asked
      obtain ⟨l, m, i', t', hd, origin⟩ := ih hi
      exact ⟨k + l, m, i', t', .within ha hd, origin⟩
    · refine ⟨0, n + 1, j, s, .self, h, fun R hj => ?_⟩
      rw [← run_plan] at h
      exact ((plan_stays hj).failed hc h).resolve_right asked

end Job

theorem During.in_of_zero {n m : Nat} {j i : Job} {s t : State σ}
    (h : During env n j s 0 m i t) (hj : j.In R) : i.In R := by
  generalize hk : 0 = k at h
  induction h with
  | self => exact hj
  | within ha _ ih =>
    obtain ⟨rfl, rfl⟩ := Nat.add_eq_zero_iff.1 hk.symm
    exact ih ((Job.plan_stays hj).asks ha) rfl

end CanvasScript
