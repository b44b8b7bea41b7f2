import CanvasScript.Proofs.Contract
import CanvasScript.Proofs.Declarations
import CanvasScript.Proofs.Parameters

namespace CanvasScript.Evaluator

open CanvasScript.Action

variable {σ : Type} {env : Embedding σ} {V : Value → Prop} {J : σ → Prop} {W : Signal → Prop}

structure Upholds (env : Embedding σ) (V : Value → Prop) (J : σ → Prop) (W : Signal → Prop) :
    Prop where
  values : Value.OnlyFunctions V
  declared : ∀ f, V (.function f) → Value.Admits V f.unit f.decl.body
  signals : ∀ f, V (.function f) → ∀ t ∈ f.decl.body, ∀ sig, t.Lets sig → sig = .returned ∨ W sig
  builtin : ∀ b args, V (.native (.builtin b)) → (∀ v ∈ args, V v) →
    Keeps V J V (Stop.Within V W) (b.call env.host args)
  custom : ∀ c ∈ env.customs, ∀ args, (∀ v ∈ args, V v) →
    Keeps V J V (Stop.Within V W) (c.call args)

structure Kept (env : Embedding σ) (V : Value → Prop) (J : σ → Prop) (W : Signal → Prop) (n : Nat) :
    Prop where
  block : ∀ unit ss, Value.Admits V unit ss →
    Keeps V J (fun _ => True) (Stop.Within V (Signal.Leaves W ss)) (block env n unit ss)
  stmt : ∀ unit s, Value.Admits V unit [s] →
    Keeps V J (fun _ => True) (Stop.Within V (Signal.Leaves W [s])) (stmt env n unit s)
  branches : ∀ unit bs otherwise,
    Value.Admits V unit (bs.flatMap (·.2) ++ otherwise.getD []) →
    Keeps V J (fun _ => True)
      (Stop.Within V (Signal.Leaves W (bs.flatMap (·.2) ++ otherwise.getD [])))
      (branches env n unit bs otherwise)
  whileLoop : ∀ unit c body p, Value.Admits V unit body →
    Keeps V J (fun _ => True) (Stop.Within V (Signal.Leaves W [.while_ c body p]))
      (whileLoop env n unit c body)
  forLoop : ∀ unit counter e count body k p, Value.Admits V unit body →
    Keeps V J (fun _ => True) (Stop.Within V (Signal.Leaves W [.for_ counter e body p]))
      (forLoop env n unit counter count body k)
  expr : ∀ e, Keeps V J V (Stop.Within V W) (expr env n e)
  exprs : ∀ es, Keeps V J (fun vs => ∀ v ∈ vs, V v) (Stop.Within V W) (exprs env n es)
  properties : ∀ ps (fields : Fields Value), (∀ e ∈ fields.entries, V e.2) →
    Keeps V J (fun f => ∀ e ∈ f.entries, V e.2) (Stop.Within V W) (properties env n ps fields)
  interpolated : ∀ p segments done,
    Keeps V J (fun _ => True) (Stop.Within V W) (interpolated env n p segments done)
  place : ∀ target, Keeps V J (fun _ => True) (Stop.Within V W) (place env n target)
  call : ∀ f args line, V f → (∀ v ∈ args, V v) →
    Keeps V J V (Stop.Within V W) (call env n f args line)

theorem kept_zero : Kept env V J W 0 := by
  constructor <;> intros <;>
    simp only [block, stmt, branches, whileLoop, forLoop, expr, exprs, properties, interpolated,
      place, call] <;>
    exact .outOfFuel trivial

namespace Kept

variable {n : Nat} (k : Kept env V J W n)
include k

theorem expr_leaves (ss : List Stmt) (e : Expr) :
    Keeps V J V (Stop.Within V (Signal.Leaves W ss)) (Evaluator.expr env n e) :=
  (k.expr e).stops fun _ => .inl

theorem block_succ (unit : Nat) (ss : List Stmt) (h : Value.Admits V unit ss) :
    Keeps V J (fun _ => True) (Stop.Within V (Signal.Leaves W ss))
      (Evaluator.block env (n + 1) unit ss) := by
  cases ss with
  | nil =>
    rw [Evaluator.block]
    exact .pure trivial
  | cons s rest =>
    rw [Evaluator.block]
    have hs := k.stmt unit s (h.mono fun t ht => by simp_all)
    have hr := k.block unit rest (h.mono fun t ht => List.mem_cons_of_mem s ht)
    exact (hs.stops (Signal.Leaves.mono fun t ht => by simp_all)).bind fun _ _ =>
      hr.stops (Signal.Leaves.mono fun t ht => List.mem_cons_of_mem s ht)

theorem branches_succ (unit : Nat) (bs : List (Expr × List Stmt)) (otherwise : Option (List Stmt))
    (h : Value.Admits V unit (bs.flatMap (·.2) ++ otherwise.getD [])) :
    Keeps V J (fun _ => True)
      (Stop.Within V (Signal.Leaves W (bs.flatMap (·.2) ++ otherwise.getD [])))
      (Evaluator.branches env (n + 1) unit bs otherwise) := by
  match bs, otherwise with
  | [], none =>
    rw [Evaluator.branches]
    exact .pure trivial
  | [], some body =>
    rw [Evaluator.branches]
    exact k.block unit body h
  | (c, body) :: rest, otherwise =>
    rw [Evaluator.branches]
    have hb : ∀ t ∈ body, t ∈ ((c, body) :: rest).flatMap (·.2) ++ otherwise.getD [] := by
      intro t ht
      simp [ht]
    have hr : ∀ t ∈ rest.flatMap (·.2) ++ otherwise.getD [],
        t ∈ ((c, body) :: rest).flatMap (·.2) ++ otherwise.getD [] := by
      intro t ht
      rw [List.flatMap_cons, List.append_assoc]
      exact List.mem_append_right _ ht
    refine (k.expr_leaves _ c).bind fun v _ => ?_
    split
    · exact (k.block unit body (h.mono hb)).stops (Signal.Leaves.mono hb)
    · exact (k.branches unit rest otherwise (h.mono hr)).stops (Signal.Leaves.mono hr)

theorem loopBody (unit : Nat) (s : Stmt) (h : Value.Admits V unit s.inner) :
    Keeps V J (fun _ => True) (Stop.Within V (Signal.Leaves W [s]))
      (Action.loopBody (Evaluator.block env n unit s.inner)) := by
  refine (k.block unit s.inner h).loopBody fun hl => ?_
  rcases hl with hw | ⟨t, ht, hl⟩
  · exact .inl hw
  · exact .inr ⟨s, List.mem_singleton_self s, .inner ht hl (.inl rfl)⟩

theorem whileLoop_succ (unit : Nat) (c : Expr) (body : List Stmt) (p : Position)
    (h : Value.Admits V unit body) :
    Keeps V J (fun _ => True) (Stop.Within V (Signal.Leaves W [.while_ c body p]))
      (Evaluator.whileLoop env (n + 1) unit c body) := by
  rw [Evaluator.whileLoop]
  refine (k.expr_leaves _ c).bind fun v _ => ?_
  split
  · refine (k.loopBody unit (.while_ c body p) h).bind fun goesOn _ => ?_
    split
    · exact k.whileLoop unit c body p h
    · exact .pure trivial
  · exact .pure trivial

theorem forLoop_succ (hV : Value.OnlyFunctions V) (unit : Nat) (counter : String) (e : Expr)
    (count : Nat) (body : List Stmt) (i : Nat) (p : Position) (h : Value.Admits V unit body) :
    Keeps V J (fun _ => True) (Stop.Within V (Signal.Leaves W [.for_ counter e body p]))
      (Evaluator.forLoop env (n + 1) unit counter count body i) := by
  rw [Evaluator.forLoop]
  split
  · refine (Keeps.setVariable (hV.data _ rfl)).bind fun _ _ => ?_
    refine (k.loopBody unit (.for_ counter e body p) h).bind fun goesOn _ => ?_
    split
    · exact k.forLoop unit counter e count body _ p h
    · exact .pure trivial
  · exact .pure trivial

theorem stmt_succ (hV : Value.OnlyFunctions V) (unit : Nat) (s : Stmt)
    (h : Value.Admits V unit [s]) :
    Keeps V J (fun _ => True) (Stop.Within V (Signal.Leaves W [s]))
      (Evaluator.stmt env (n + 1) unit s) := by
  match s with
  | .function name params body p =>
    rw [Evaluator.stmt]
    exact .setVariable (h _ (List.mem_singleton_self _) ⟨name, params, body, p⟩ .self)
  | .return_ none p =>
    rw [Evaluator.stmt]
    exact .interrupt ⟨.inr ⟨_, List.mem_singleton_self _, .returned _ _⟩, hV.data _ rfl⟩
  | .return_ (some e) p =>
    rw [Evaluator.stmt]
    exact (k.expr_leaves _ e).bind fun v hv =>
      .interrupt ⟨.inr ⟨_, List.mem_singleton_self _, .returned _ _⟩, hv⟩
  | .branch c body elseifs otherwise p =>
    rw [Evaluator.stmt]
    have hi := Value.Admits.inner h
    exact (k.branches unit ((c, body) :: elseifs) otherwise hi).stops
      (Signal.Leaves.inner (s := .branch c body elseifs otherwise p) rfl)
  | .while_ c body p =>
    rw [Evaluator.stmt]
    exact k.whileLoop unit c body p (Value.Admits.inner h)
  | .for_ counter count body p =>
    rw [Evaluator.stmt]
    refine (k.expr_leaves _ count).bind fun v _ => ?_
    refine (Keeps.onHeap (Q := fun _ => True) fun _ => trivial).bind fun m _ => ?_
    exact k.forLoop unit counter count m body 0 p (Value.Admits.inner h)
  | .break_ p =>
    rw [Evaluator.stmt]
    exact .interrupt (.inr ⟨_, List.mem_singleton_self _, .break_ _⟩)
  | .continue_ p =>
    rw [Evaluator.stmt]
    exact .interrupt (.inr ⟨_, List.mem_singleton_self _, .continue_ _⟩)
  | .expr e =>
    rw [Evaluator.stmt]
    exact (k.expr_leaves _ e).bind fun _ _ => .pure trivial

theorem exprs_succ (es : List Expr) :
    Keeps V J (fun vs => ∀ v ∈ vs, V v) (Stop.Within V W) (Evaluator.exprs env (n + 1) es) := by
  cases es with
  | nil =>
    rw [Evaluator.exprs]
    exact .pure (by simp)
  | cons e es =>
    rw [Evaluator.exprs]
    refine (k.expr e).bind fun v hv => (k.exprs es).bind fun vs hvs => .pure ?_
    simpa [hv] using hvs

theorem properties_succ (ps : List (String × Expr)) (fields : Fields Value)
    (h : ∀ e ∈ fields.entries, V e.2) :
    Keeps V J (fun f => ∀ e ∈ f.entries, V e.2) (Stop.Within V W)
      (Evaluator.properties env (n + 1) ps fields) := by
  cases ps with
  | nil =>
    rw [Evaluator.properties]
    exact .pure h
  | cons property rest =>
    obtain ⟨key, e⟩ := property
    rw [Evaluator.properties]
    exact (k.expr e).bind fun v hv => k.properties rest _ (Fields.forall_set h key hv)

theorem interpolated_succ (p : Position) (segments : List Segment) (done : String) :
    Keeps V J (fun _ => True) (Stop.Within V W)
      (Evaluator.interpolated env (n + 1) p segments done) := by
  match segments with
  | [] =>
    rw [Evaluator.interpolated]
    exact .pure trivial
  | .text s :: rest =>
    rw [Evaluator.interpolated]
    exact k.interpolated p rest _
  | .expr source :: rest =>
    rw [Evaluator.interpolated]
    split
    · exact .interrupt trivial
    · refine (k.expr _).bind fun v _ => ?_
      exact (Keeps.onHeap (Q := fun _ => True) fun _ => trivial).bind fun t _ =>
        k.interpolated p rest _

theorem place_succ (target : Target) :
    Keeps V J (fun _ => True) (Stop.Within V W) (Evaluator.place env (n + 1) target) := by
  cases target with
  | «variable» name =>
    rw [Evaluator.place]
    exact .pure trivial
  | member owner property =>
    rw [Evaluator.place]
    exact (k.expr owner).bind fun v _ => .pure trivial
  | index owner index =>
    rw [Evaluator.place]
    exact (k.expr owner).bind fun v _ => (k.expr index).bind fun i _ => .pure trivial

end Kept

theorem shadowedArg_every (hV : Value.OnlyFunctions V) {args : List Value}
    (ha : ∀ v ∈ args, V v) {name : String} {ps : List String} {v : Value}
    (h : shadowedArg name ps args = some v) : V v := by
  induction ps generalizing args with
  | nil => simp [shadowedArg] at h
  | cons p ps ih =>
    rw [shadowedArg, Option.or_eq_some_iff] at h
    rcases h with h | ⟨-, h⟩
    · exact ih (fun v hv => ha v (List.mem_of_mem_tail hv)) h
    · split at h
      · cases h
        cases args with
        | nil => exact hV.data _ rfl
        | cons a args => exact ha a List.mem_cons_self
      · simp at h

theorem bindParams_every (hV : Value.OnlyFunctions V) {args : List Value}
    (ha : ∀ v ∈ args, V v) (ps : List String) {bindings : Bindings}
    (hb : ∀ (name : String) v, bindings[name]? = some v → V v) (saved : List (String × Value)) :
    ∀ (name : String) v, (bindParams ps args bindings saved).1[name]? = some v → V v := by
  induction ps generalizing args bindings saved with
  | nil => exact hb
  | cons p ps ih =>
    rw [bindParams_cons]
    refine ih (fun v hv => ha v (List.mem_of_mem_tail hv)) (fun name v hv => ?_) _
    rw [Std.HashMap.getElem?_insert] at hv
    split at hv
    · cases hv
      cases args with
      | nil => exact hV.data _ rfl
      | cons a args => exact ha a List.mem_cons_self
    · exact hb name v hv

theorem callResult_ends {r : Except Stop Unit} (hV : Value.OnlyFunctions V)
    (h : Ends (fun _ => True) (Stop.Within V fun sig => sig = .returned ∨ W sig) r) :
    Ends V (Stop.Within V W) (callResult r) := by
  match r, h with
  | .ok (), _ => exact hV.data _ rfl
  | .error (.interrupt (.returned v)), h => exact h.2
  | .error (.interrupt .break_), h => exact h.resolve_left nofun
  | .error (.interrupt .continue_), h => exact h.resolve_left nofun
  | .error (.interrupt .exit), _ => trivial
  | .error (.interrupt (.error e)), _ => trivial
  | .error .outOfFuel, _ => trivial

theorem update_keeps (hV : Value.OnlyFunctions V) (op : UpdateOp) (name : String) :
    Keeps V J V (Stop.Within V W) (update op name : Action σ Value) := by
  intro s hs
  exact ⟨hs.insert name (hV.arith _ _ _ _), hV.getD fun v hv => hs.bindings name v hv⟩

namespace Kept

variable {n : Nat} (k : Kept env V J W n)
include k

theorem expr_succ (hV : Value.OnlyFunctions V) (e : Expr) :
    Keeps V J V (Stop.Within V W) (Evaluator.expr env (n + 1) e) := by
  match e with
  | .literal (.text s) p =>
    rw [Evaluator.expr]
    split
    · exact (k.interpolated p _ "").bind fun t _ => .pure (hV.data _ rfl)
    · exact .pure (hV.data _ rfl)
  | .literal (.number x) p =>
    simp only [Evaluator.expr]
    exact .pure (hV.literal _)
  | .literal (.bool b) p =>
    simp only [Evaluator.expr]
    exact .pure (hV.literal _)
  | .literal .null p =>
    simp only [Evaluator.expr]
    exact .pure (hV.literal _)
  | .literal .undefined p =>
    simp only [Evaluator.expr]
    exact .pure (hV.literal _)
  | .variable name p =>
    rw [Evaluator.expr]
    exact .variable_
  | .assign target value p =>
    rw [Evaluator.expr]
    refine (k.expr value).bind fun v hv => (k.place target).bind fun place _ => ?_
    exact (Keeps.writePlace hV hv).bind fun _ _ => .pure (hV.data _ rfl)
  | .compound op target value p =>
    rw [Evaluator.expr]
    refine (k.place target).bind fun place _ => (Keeps.readPlace hV).bind fun old _ => ?_
    refine (k.expr value).bind fun v _ => ?_
    refine (Keeps.onHeap fun h => hV.arith h op old v).bind fun new hnew => ?_
    exact (Keeps.writePlace hV hnew).bind fun _ _ => .pure (hV.data _ rfl)
  | .update op name p =>
    rw [Evaluator.expr]
    exact update_keeps hV op name
  | .unary op operand p =>
    rw [Evaluator.expr]
    exact (k.expr operand).bind fun v _ => .onHeap fun h => hV.unary h op v
  | .binary op left right p =>
    rw [Evaluator.expr]
    exact (k.expr left).bind fun a ha => (k.expr right).bind fun b hb =>
      .onHeap fun h => hV.binary h op ha hb
  | .call callee args p =>
    rw [Evaluator.expr]
    refine (k.expr callee).bind fun f hf => (k.exprs args).bind fun vs hvs => ?_
    split
    · exact k.call f vs p.line hf hvs
    · exact .interrupt trivial
  | .member owner property p =>
    rw [Evaluator.expr]
    exact (k.expr owner).bind fun v _ => .readPlace hV
  | .index owner index p =>
    rw [Evaluator.expr]
    exact (k.expr owner).bind fun v _ => (k.expr index).bind fun i _ => .readPlace hV
  | .array items p =>
    rw [Evaluator.expr]
    exact (k.exprs items).bind fun vs hvs => .newArray hV fun v hv => hvs v (List.mem_toArray.1 hv)
  | .object ps p =>
    rw [Evaluator.expr]
    exact (k.properties ps .empty (by simp [Fields.empty])).bind fun fields hf => .newObject hV hf

theorem callFunction (hu : Upholds env V J W) (f : Function) (args : List Value) (line : Nat)
    (hf : V (.function f)) (ha : ∀ v ∈ args, V v) :
    Keeps V J V (Stop.Within V W)
      (callFunction f args line (Evaluator.block env n f.unit f.decl.body)) := by
  intro s hs
  by_cases hd : s.maxCallDepth ≤ s.depth
  · rw [callFunction_refused hd]
    exact ⟨hs, trivial⟩
  · rw [callFunction_entered hd]
    have inside : Keeps V J (fun _ => True)
        (Stop.Within V fun sig => sig = .returned ∨ W sig)
        (Evaluator.block env n f.unit f.decl.body) :=
      (k.block f.unit f.decl.body (hu.declared f hf)).stops fun sig hl =>
        hl.elim .inr fun ⟨t, ht, hl⟩ => hu.signals f hf t ht sig hl
    have body := inside
      { s with
        bindings := (bindParams f.decl.params args s.bindings []).1, depth := s.depth + 1 }
      ⟨bindParams_every hu.values ha _ hs.bindings [], hs.heap, hs.world⟩
    -- a name is bound as the body left it, as before the call, or to a repeated name's argument
    refine ⟨⟨fun name v hv => ?_, body.1.heap, body.1.world⟩, callResult_ends hu.values body.2⟩
    simp only [restoreParams_bindParams] at hv
    split at hv
    · rw [Option.or_eq_some_iff] at hv
      exact hv.elim (shadowedArg_every hu.values ha) fun hv => hs.bindings name v hv.2
    · exact body.1.bindings name v hv

theorem call_succ (hu : Upholds env V J W) (f : Value) (args : List Value) (line : Nat)
    (hf : V f) (ha : ∀ v ∈ args, V v) :
    Keeps V J V (Stop.Within V W) (Evaluator.call env (n + 1) f args line) := by
  match f with
  | .function f =>
    rw [Evaluator.call]
    exact k.callFunction hu f args line hf ha
  | .native (.builtin b) =>
    rw [Evaluator.call]
    exact (hu.builtin b args hf ha).attributed
  | .native (.custom slot name suspends) =>
    rw [Evaluator.call]
    split
    · rename_i c hc
      exact (hu.custom c (List.mem_of_getElem? hc) args ha).attributed
    · exact .interrupt trivial
  | .method receiver m =>
    rw [Evaluator.call]
    exact .callMethod hu.values ha
  | .number _ | .text _ | .bool _ | .null | .undefined | .array _ | .object _ =>
    simp only [Evaluator.call]
    exact .interrupt trivial

end Kept

theorem kept (hu : Upholds env V J W) (n : Nat) : Kept env V J W n := by
  -- the functions call one another with one unit of fuel less: one induction for all of them
  induction n with
  | zero => exact kept_zero
  | succ n k =>
    exact {
      block := k.block_succ
      stmt := k.stmt_succ hu.values
      branches := k.branches_succ
      whileLoop := k.whileLoop_succ
      forLoop := k.forLoop_succ hu.values
      expr := k.expr_succ hu.values
      exprs := k.exprs_succ
      properties := k.properties_succ
      interpolated := k.interpolated_succ
      place := k.place_succ
      call := k.call_succ hu }

end CanvasScript.Evaluator
