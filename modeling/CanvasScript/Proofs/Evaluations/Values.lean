import CanvasScript.Proofs.Contract.Evaluation
import CanvasScript.Proofs.Evaluations.Progress

namespace CanvasScript

open CanvasScript.Action (Keeps)
open Evaluator (Upholds)

variable {σ : Type} {env : Embedding σ} {V : Value → Prop} {J : σ → Prop} {W : Signal → Prop}

namespace Job

def Carries (V : Value → Prop) : Job → Prop
  | block unit ss => Value.Admits V unit ss
  | stmt unit s => Value.Admits V unit [s]
  | branches unit bs otherwise => Value.Admits V unit (bs.flatMap (·.2) ++ otherwise.getD [])
  | whileLoop unit _ body => Value.Admits V unit body
  | forLoop unit _ _ body _ => Value.Admits V unit body
  | properties _ fields => ∀ e ∈ fields.entries, V e.2
  | call callee args _ => V callee ∧ ∀ v ∈ args, V v
  | _ => True

def Gives (V : Value → Prop) : (j : Job) → j.Result → Prop
  | expr _, v => V v
  | exprs _, vs => ∀ v ∈ vs, V v
  | properties _ _, fields => ∀ e ∈ fields.entries, V e.2
  | call _ _ _, v => V v
  | _, _ => True

theorem keeps (hu : Upholds env V J W) (n : Nat) {j : Job} (h : j.Carries V) :
    Keeps V J (j.Gives V) (Stop.Within V fun _ => True) (j.run env n) := by
  have k := Evaluator.kept hu n
  cases j with
  | block unit ss => exact (k.block unit ss h).stops fun _ _ => trivial
  | stmt unit s => exact (k.stmt unit s h).stops fun _ _ => trivial
  | branches unit bs otherwise => exact (k.branches unit bs otherwise h).stops fun _ _ => trivial
  | whileLoop unit c body => exact (k.whileLoop unit c body .start h).stops fun _ _ => trivial
  | forLoop unit counter count body i =>
    exact (k.forLoop unit counter default count body i .start h).stops fun _ _ => trivial
  | expr e => exact (k.expr e).stops fun _ _ => trivial
  | exprs es => exact (k.exprs es).stops fun _ _ => trivial
  | properties ps fields => exact (k.properties ps fields h).stops fun _ _ => trivial
  | interpolated p segments done =>
    exact (k.interpolated p segments done).stops fun _ _ => trivial
  | place target => exact (k.place target).stops fun _ _ => trivial
  | call callee args line => exact (k.call callee args line h.1 h.2).stops fun _ _ => trivial

end Job

namespace Plan

variable {n : Nat} {α β : Type}

def Hands (V : Value → Prop) (J : σ → Prop) (n : Nat) (x : Plan env α) : Prop :=
  ∀ s k j t, s.Holds V J → x.Asks (Job.run env n) s k j t → t.Holds V J ∧ j.Carries V

namespace Hands

theorem pure (a : α) : Hands V J n (Pure.pure a : Plan env α) := fun _ _ _ _ _ => nofun

theorem step (x : Step env α) : Hands V J n (step x) := fun _ _ _ _ _ => nofun

theorem ask {j : Job} (hj : j.Carries V) : Hands V J n (ask j : Plan env j.Result) := by
  rintro s k i t hs ⟨-, rfl, rfl⟩
  exact ⟨hs, hj⟩

theorem bind {Q : α → Prop} {S : Stop → Prop} {x : Plan env α} {f : α → Plan env β}
    (hx : Hands V J n x) (keeps : Keeps V J Q S (x.run (Job.run env n)))
    (hf : ∀ a, Q a → Hands V J n (f a)) : Hands V J n (x >>= f) := by
  rintro s k j t hs (h | ⟨a, u, hr, h⟩)
  · exact hx s k j t hs h
  · have hu := keeps s hs
    rw [hr] at hu
    exact hf a hu.2 u k j t hu.1 h

theorem step_bind {Q : α → Prop} {x : Step env α} {f : α → Plan env β}
    (keeps : Keeps V J Q (Stop.Within V fun _ => True) x.run)
    (hf : ∀ a, Q a → Hands V J n (f a)) : Hands V J n (Plan.step x >>= f) :=
  (step x).bind keeps hf

variable (hu : Upholds env V J W)
include hu

theorem ask_bind {j : Job} {f : j.Result → Plan env β} (hj : j.Carries V)
    (hf : ∀ a, j.Gives V a → Hands V J n (f a)) : Hands V J n (Plan.ask j >>= f) :=
  (ask hj).bind (Job.keeps hu n hj) hf

theorem loopBody_bind {unit : Nat} {body : List Stmt} {f : Bool → Plan env β}
    (hb : Value.Admits V unit body) (hf : ∀ a, Hands V J n (f a)) :
    Hands V J n (Plan.loopBody (Plan.ask (.block unit body)) >>= f) := by
  have asks : Hands V J n (.loopBody (.ask (.block unit body)) : Plan env Bool) :=
    ask (j := .block unit body) hb
  have inside := Job.keeps hu n (j := .block unit body) hb
  have keeps : Keeps V J (fun _ => True) (Stop.Within V fun _ => True)
      (Action.loopBody (Job.run env n (.block unit body))) := inside.loopBody fun _ => trivial
  exact asks.bind keeps fun a _ => hf a

end Hands

end Plan

namespace Job

open Plan (Hands)

variable {n : Nat} (hu : Upholds env V J W)
include hu

theorem hands_expr (e : Expr) : ((expr e).plan env).Hands V J n := by
  have hV := hu.values
  match e with
  | .literal (.text s) p =>
    simp only [plan]
    split
    · exact .ask_bind hu trivial fun t _ => .pure _
    · exact .pure _
  | .literal (.number _) p | .literal (.bool _) p | .literal .null p | .literal .undefined p =>
    exact .pure _
  | .variable name p => exact .step _
  | .assign target value p =>
    refine .ask_bind hu (j := expr value) trivial fun v hv => ?_
    refine .ask_bind hu (j := place target) trivial fun dest _ => ?_
    exact .step_bind (.writePlace hV hv) fun _ _ => .pure _
  | .compound op target value p =>
    refine .ask_bind hu (j := place target) trivial fun dest _ => ?_
    refine .step_bind (.readPlace hV) fun old _ => ?_
    refine .ask_bind hu (j := expr value) trivial fun v hv => ?_
    refine .step_bind (.onHeap fun h => hV.arith h op old v) fun new hn => ?_
    exact .step_bind (.writePlace hV hn) fun _ _ => .pure _
  | .update op name p => exact .step _
  | .unary op operand p => exact .ask_bind hu (j := expr operand) trivial fun v _ => .step _
  | .binary op left right p =>
    refine .ask_bind hu (j := expr left) trivial fun a _ => ?_
    exact .ask_bind hu (j := expr right) trivial fun b _ => .step _
  | .call callee args p =>
    refine .ask_bind hu (j := expr callee) trivial fun f hf => ?_
    refine .ask_bind hu (j := exprs args) trivial fun vs hvs => ?_
    split
    · exact .ask (j := call f vs p.line) ⟨hf, hvs⟩
    · exact .step _
  | .member owner property p => exact .ask_bind hu (j := expr owner) trivial fun v _ => .step _
  | .index owner index p =>
    refine .ask_bind hu (j := expr owner) trivial fun v _ => ?_
    exact .ask_bind hu (j := expr index) trivial fun i _ => .step _
  | .array items p => exact .ask_bind hu (j := exprs items) trivial fun vs _ => .step _
  | .object ps p =>
    have none : Carries V (properties ps .empty) := List.forall_mem_nil _
    exact .ask_bind hu none fun fields _ => .step _

theorem hands_stmt (unit : Nat) (s : Stmt) (h : Value.Admits V unit [s]) :
    ((stmt unit s).plan env).Hands V J n := by
  match s with
  | .function name params body p => exact .step _
  | .return_ none p => exact .step _
  | .return_ (some e) p => exact .ask_bind hu (j := expr e) trivial fun v _ => .step _
  | .branch c body elseifs otherwise p =>
    exact .ask (j := branches unit ((c, body) :: elseifs) otherwise) h.inner
  | .while_ c body p => exact .ask (j := whileLoop unit c body) h.inner
  | .for_ counter count body p =>
    refine .ask_bind hu (j := expr count) trivial fun v _ => ?_
    refine .step_bind (.onHeap (Q := fun _ => True) fun _ => trivial) fun m _ => ?_
    exact .ask (j := forLoop unit counter m body 0) h.inner
  | .break_ p | .continue_ p => exact .step _
  | .expr e => exact .ask_bind hu (j := expr e) trivial fun v _ => .pure _

theorem hands_branches (unit : Nat) (bs : List (Expr × List Stmt))
    (otherwise : Option (List Stmt)) (h : (branches unit bs otherwise).Carries V) :
    ((branches unit bs otherwise).plan env).Hands V J n := by
  match bs, otherwise with
  | [], none => exact .pure _
  | [], some body => exact .ask (j := block unit body) h
  | (c, body) :: rest, otherwise =>
    rw [Carries, List.flatMap_cons, List.append_assoc] at h
    refine .ask_bind hu (j := expr c) trivial fun v _ => ?_
    split
    · exact .ask (j := block unit body) (h.mono fun _ => List.mem_append_left _)
    · exact .ask (j := branches unit rest otherwise) (h.mono fun _ => List.mem_append_right _)

theorem hands_interpolated (p : Position) (segments : List Segment) (done : String) :
    ((interpolated p segments done).plan env).Hands V J n := by
  match segments with
  | [] => exact .pure _
  | .text s :: rest => exact .ask (j := interpolated p rest _) trivial
  | .expr source :: rest =>
    simp only [plan]
    split
    · exact .step _
    · rename_i e _
      refine .ask_bind hu (j := expr e) trivial fun v _ => ?_
      refine .step_bind (.onHeap (Q := fun _ => True) fun _ => trivial) fun t _ => ?_
      exact .ask (j := interpolated p rest _) trivial

theorem hands_call (callee : Value) (args : List Value) (line : Nat)
    (h : (call callee args line).Carries V) : ((call callee args line).plan env).Hands V J n := by
  match callee with
  | .function f =>
    intro s k i t hs ha
    obtain ⟨-, -, rfl, rfl⟩ := asks_of_call.1 ha
    exact ⟨⟨Evaluator.bindParams_every hu.values h.2 _ hs.bindings [], hs.heap, hs.world⟩,
      hu.declared f h.1⟩
  | .native (.builtin b) | .method receiver m | .number _ | .text _ | .bool _ | .null
  | .undefined | .array _ | .object _ => exact .step _
  | .native (.custom slot name suspends) =>
    simp only [plan]
    split <;> exact .step _

theorem hands {j : Job} (h : j.Carries V) : (j.plan env).Hands V J n := by
  match j, h with
  | block unit [], _ => exact .pure _
  | block unit (s :: rest), h =>
    refine .ask_bind hu (j := stmt unit s) (h.mono ?_) fun _ _ =>
      .ask (j := block unit rest) (h.mono fun _ => List.mem_cons_of_mem s)
    exact fun t ht => List.mem_singleton.1 ht ▸ List.mem_cons_self
  | stmt unit s, h => exact hands_stmt hu unit s h
  | branches unit bs otherwise, h => exact hands_branches hu unit bs otherwise h
  | whileLoop unit c body, h =>
    refine .ask_bind hu (j := expr c) trivial fun v _ => ?_
    split
    · refine .loopBody_bind hu h fun goesOn => ?_
      split
      · exact .ask (j := whileLoop unit c body) h
      · exact .pure _
    · exact .pure _
  | forLoop unit counter count body k, h =>
    simp only [plan]
    split
    · refine .step_bind (.setVariable (hu.values.data _ rfl)) fun _ _ => ?_
      refine .loopBody_bind hu h fun goesOn => ?_
      split
      · exact .ask (j := forLoop unit counter count body _) h
      · exact .pure _
    · exact .pure _
  | expr e, _ => exact hands_expr hu e
  | exprs [], _ => exact .pure _
  | exprs (e :: es), _ =>
    exact .ask_bind hu (j := expr e) trivial fun v _ =>
      .ask_bind hu (j := exprs es) trivial fun vs _ => .pure _
  | properties [] fields, _ => exact .pure _
  | properties ((key, e) :: rest) fields, h =>
    exact .ask_bind hu (j := expr e) trivial fun v hv =>
      .ask (j := properties rest _) (Fields.forall_set h key hv)
  | interpolated p segments done, _ => exact hands_interpolated hu p segments done
  | place (.variable name), _ => exact .pure _
  | place (.member owner property), _ =>
    exact .ask_bind hu (j := expr owner) trivial fun v _ => .pure _
  | place (.index owner index), _ =>
    exact .ask_bind hu (j := expr owner) trivial fun v _ =>
      .ask_bind hu (j := expr index) trivial fun i _ => .pure _
  | call callee args line, h => exact hands_call hu callee args line h

end Job

end CanvasScript
