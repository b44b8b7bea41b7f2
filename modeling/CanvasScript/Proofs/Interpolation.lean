import CanvasScript.Proofs.Evaluations.Alike
import CanvasScript.Proofs.Segments

namespace CanvasScript

variable {σ : Type} {env : Embedding σ}

def Segment.expr? (p : Position) : Segment → Except (List Diagnostic) Expr
  | text s => .ok (.literal (.text s) p)
  | expr source => Marker.parse source p

def Expr.sum (p : Position) (es : List Expr) : Expr :=
  es.foldl (fun left right => .binary (.arith .add) left right p) (.literal (.text "") p)

namespace Value

theorem display_toPrimitive (h : Heap) (v : Value) : (toPrimitive h v).display h = v.display h := by
  unfold toPrimitive
  split <;> rfl

theorem add_text (h : Heap) (s : String) (v : Value) :
    add h (text s) v = text (s ++ v.display h) := by
  rw [← display_toPrimitive h v]
  rfl

end Value

namespace Plan

open Job (expr interpolated)
open Marker (segments flush)

def addAll : Value → List Expr → Plan env Value
  | v, [] => return v
  | v, e :: es => do
    let w : Value ← ask (expr e)
    let sum ← step (.onHeap fun h => Value.add h v w)
    addAll sum es

def asText (x : Plan env String) : Plan env Value := x >>= fun s => return .text s

theorem asText_of_pure {x : Plan env String} {s : String} (h : x.Alike (return s)) :
    x.asText.Alike (return .text s) :=
  Alike.bind_of_pure h _

theorem alike_foldl (p : Position) (left : Expr) (es : List Expr) :
    (ask (expr (es.foldl (fun left right => .binary (.arith .add) left right p) left))).Alike
      (ask (expr left) >>= fun v : Value => (addAll v es : Plan env Value)) := by
  induction es generalizing left with
  | nil => exact (Alike.bind_pure _).symm
  | cons e es ih =>
    have sum : (ask (expr (.binary (.arith .add) left e p)) : Plan env Value).Alike
        (ask (expr left) >>= fun v : Value => ask (expr e) >>= fun w : Value =>
          step (.onHeap fun h => Value.add h v w)) := Alike.plan nofun
    calc ask (expr (es.foldl _ (.binary (.arith .add) left e p)))
      _ |>.Alike _ := ih _
      _ |>.Alike _ := sum.bind fun _ => .refl _
      _ |>.Alike _ := .assoc ..
      _ |>.Alike _ := .bind (.refl _) fun _ => .assoc ..

theorem alike_flush (p : Position) (gathered : List Char) (done : String) :
    (ask (interpolated p (flush gathered) done) : Plan env String).Alike
      (return done ++ String.ofList gathered.reverse) := by
  have nothing (done : String) :
      (ask (interpolated p [] done) : Plan env String).Alike (return done) := Alike.plan nofun
  rcases Marker.flush_eq gathered with ⟨rfl, h⟩ | ⟨-, h⟩ <;> rw [h]
  · simpa using nothing done
  · have one : (ask (interpolated p [.text (String.ofList gathered.reverse)] done) :
        Plan env String).Alike (ask (interpolated p [] _)) := Alike.plan nofun
    exact one.trans (nothing _)

theorem alike_whole {s : String} (closed : ∀ j, ¬ Marker.Opens (s.toList.drop j)) (p : Position) :
    (ask (interpolated p (segments s) "") : Plan env String).Alike (return s) := by
  rw [segments, Marker.segmentsFrom_of_not_opens closed, List.append_nil]
  have whole : (ask (interpolated p (flush s.toList.reverse) "") : Plan env String).Alike _ :=
    alike_flush p s.toList.reverse ""
  simpa using whole

theorem alike_literal (s : String) (p : Position) :
    (ask (expr (.literal (.text s) p)) : Plan env Value).Alike
      (ask (interpolated p (segments s) "")).asText := by
  refine (Alike.plan (j := expr (.literal (.text s) p)) nofun).trans ?_
  by_cases h : Evaluator.mayHoldMarker s = true
  · rw [Job.plan, if_pos h]
    exact .refl _
  · have closed (j : Nat) : ¬ Marker.Opens (s.toList.drop j) := by
      rintro ⟨rest, opens, -⟩
      have dollar : '$' ∈ s.toList := List.mem_of_mem_drop (opens ▸ List.mem_cons_self)
      exact h (String.contains_bool_eq.trans (List.any_eq_true.2 ⟨_, dollar, decide_eq_true rfl⟩))
    rw [Job.plan, if_neg h]
    exact (asText_of_pure (alike_whole closed p)).symm

theorem alike_closed {s : String} (closed : ∀ j, ¬ Marker.Opens (s.toList.drop j)) (p : Position) :
    (ask (expr (.literal (.text s) p)) : Plan env Value).Alike (return .text s) :=
  (alike_literal s p).trans (asText_of_pure (alike_whole closed p))

theorem alike_interpolated {p : Position} {segments : List Segment} {es : List Expr}
    (compiled : List.Forall₂ (fun segment e => segment.expr? p = .ok e) segments es)
    (closed : ∀ t, .text t ∈ segments → ∀ j, ¬ Marker.Opens (t.toList.drop j)) (done : String) :
    (ask (interpolated p segments done) : Plan env String).asText.Alike
      (addAll (.text done) es) := by
  induction compiled generalizing done with
  | nil => exact asText_of_pure (Alike.plan nofun)
  | @cons segment e rest es he _ ih =>
    have ih (done : String) : (ask (interpolated p rest done) : Plan env String).asText.Alike
        (addAll (.text done) es) := ih (fun t ht => closed t (List.mem_cons_of_mem _ ht)) done
    cases segment with
    | text t =>
      cases he
      have first : (ask (interpolated p (.text t :: rest) done) : Plan env String).Alike
          (ask (interpolated p rest (done ++ t))) := Alike.plan nofun
      have added : (addAll (.text done) (.literal (.text t) p :: es) : Plan env Value).Alike
          (addAll (.text (done ++ t)) es) := by
        refine (Alike.bind_of_pure (alike_closed (closed t List.mem_cons_self) p) _).trans ?_
        exact Alike.onHeap_const fun heap => Value.add_text heap done (.text t) ▸ .refl _
      exact (first.bind fun _ => .refl _).trans ((ih (done ++ t)).trans added.symm)
    | expr source =>
      have parsed : Marker.parse source p = .ok e := he
      have first : (ask (interpolated p (.expr source :: rest) done) : Plan env String).Alike
          (ask (expr e) >>= fun v : Value => step (.onHeap v.display) >>= fun t =>
            ask (interpolated p rest (done ++ t))) := by
        refine (Alike.plan (j := interpolated p (.expr source :: rest) done) nofun).trans ?_
        rw [Job.plan, parsed]
        exact .refl _
      refine (first.bind fun _ => .refl _).trans ((Alike.assoc ..).trans ?_)
      refine .bind (.refl _) fun v => (Alike.assoc ..).trans (.onHeap_bind fun heap => ?_)
      rw [Value.add_text]
      exact ih _

theorem alike_sum {s : String} {p : Position} {es : List Expr} (q : Position)
    (compiled : List.Forall₂ (fun segment e => segment.expr? p = .ok e) (segments s) es) :
    (ask (expr (.literal (.text s) p)) : Plan env Value).Alike (ask (expr (.sum q es))) := by
  have closed (t : String) (ht : .text t ∈ segments s) :=
    ((Marker.segments_parted s).text_closed ht).2
  have empty : (ask (expr (.literal (.text "") q)) : Plan env Value).Alike (return .text "") :=
    alike_closed (fun j => List.drop_nil ▸ Marker.not_opens_nil) q
  refine (alike_literal s p).trans ((alike_interpolated compiled closed "").trans ?_)
  exact ((alike_foldl q _ es).trans (Alike.bind_of_pure empty _)).symm

end Plan

theorem literal_as_sum (env : Embedding σ) (s : String) (p q : Position) (es : List Expr)
    (compiled : List.Forall₂ (fun segment e => segment.expr? p = .ok e) (Marker.segments s) es) :
    (∀ st r t, (Job.expr (.literal (.text s) p)).Ends env st r t ↔
      (Job.expr (.sum q es)).Ends env st r t) ∧
    (∀ st k callee args line t,
      (Job.expr (.literal (.text s) p)).Begins env st k (.call callee args line) t ↔
        (Job.expr (.sum q es)).Begins env st k (.call callee args line) t) ∧
    ((∀ source, .expr source ∉ Marker.segments s) →
      ∀ st, (Job.expr (.literal (.text s) p)).Ends env st (.ok (.text s)) st) := by
  have alike : (Plan.ask (.expr (.literal (.text s) p)) : Plan env Value).Alike _ :=
    Plan.alike_sum q compiled
  refine ⟨alike.ends, fun st k callee args line t => ?_, fun none st => ?_⟩
  · exact Plan.begins_ask.symm.trans ((alike.calls st k callee args line t).trans Plan.begins_ask)
  · have closed := (Marker.segments_parted s).closed_of_no_expr none
    exact Plan.ends_ask.1 (((Plan.alike_closed closed p).ends st _ st).2 (Plan.ends_pure.2 rfl))

def countedParts : List Expr :=
  [.literal (.text "n: ") .start, .update .increment "n" .start, .literal (.text ", ") .start,
    .variable "n" .start]

theorem counted_as_sum :
    let env : Embedding (Unit × List Request) := .plain (Host.silent Unit).traced
    Marker.segments "n: ${n++}, ${n}" =
      [.text "n: ", .expr "n++", .text ", ", .expr "n"] ∧
    List.Forall₂ (fun segment e => segment.expr? .start = .ok e)
      (Marker.segments "n: ${n++}, ${n}") countedParts ∧
    ∀ st r t, (Job.expr (.literal (.text "n: ${n++}, ${n}") .start)).Ends env st r t ↔
      (Job.expr (.sum .start countedParts)).Ends env st r t := by
  have parts : Marker.segments "n: ${n++}, ${n}" =
      [.text "n: ", .expr "n++", .text ", ", .expr "n"] := by rfl
  have compiled : List.Forall₂ (fun segment e => segment.expr? .start = .ok e)
      (Marker.segments "n: ${n++}, ${n}") countedParts := by
    rw [parts]
    exact .cons rfl (.cons rfl (.cons rfl (.cons rfl .nil)))
  exact ⟨parts, compiled, (literal_as_sum _ _ _ .start _ compiled).1⟩

end CanvasScript
