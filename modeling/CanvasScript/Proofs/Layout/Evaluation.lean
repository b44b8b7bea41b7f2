import CanvasScript.Host.Extras
import CanvasScript.Proofs.Layout.Matching
import CanvasScript.Proofs.Layout.Scanning

namespace CanvasScript

open CanvasScript.Action

variable {σ α : Type} {ρ : Renaming}

namespace Builtin

open Value (arg arg_moved)

section Arguments

variable (args : List Value) (i : Nat) (h : Heap)

theorem number_moved :
    number (args.map (Value.moved ρ)) i (h.moved ρ) = number args i h := by
  rw [number, arg_moved, Value.toNumber_moved, number]

theorem display_moved :
    display (args.map (Value.moved ρ)) i (h.moved ρ) = display args i h := by
  rw [display, arg_moved, Value.display_moved, display]

theorem color_moved : color (args.map (Value.moved ρ)) i (h.moved ρ) = color args i h := by
  simp only [color, number_moved]

end Arguments

theorem granted_matches (b : Builtin) (r : Except String α) :
    Matches ρ id (granted b r : Action σ α) (granted b r) := by
  cases r with
  | ok a => exact .pure rfl
  | error reason => exact .fail 0 0 rfl

theorem entryValues_matches (ds : List DirEntry) :
    Matches ρ (List.map (Value.moved ρ)) (entryValues ds : Action σ _) (entryValues ds) := by
  induction ds with
  | nil => exact .pure rfl
  | cons d ds ih =>
    refine (Matches.newObject ?_).bind fun v => ih.bind fun vs => .pure rfl
    rw [DirEntry.fields, ← Fields.ofList_map]
    rfl

theorem math_matches (f : Float → Float) (args : List Value) :
    Matches ρ (Value.moved ρ) (math f args : Action σ Value)
      (math f (args.map (Value.moved ρ))) := by
  have counted : Matches ρ id (Action.onHeap (number args 0) : Action σ Float)
      (Action.onHeap (number (args.map (Value.moved ρ)) 0)) :=
    .onHeap fun heap => number_moved args 0 heap
  exact counted.bind fun x => .pure rfl

variable (host : Host σ)

theorem request_matches (r : Request) :
    Matches ρ (Value.moved ρ) (request host r) (request host r) :=
  (Matches.ask host r).bind fun _ => .pure rfl

theorem print_matches (before after : String) (args : List Value) :
    Matches ρ (Value.moved ρ) (print host before after args)
      (print host before after (args.map (Value.moved ρ))) :=
  (Matches.onHeap fun heap => Console.formatArgs_moved ρ heap args).bind fun _ =>
    request_matches host _

theorem call_matches (b : Builtin) (args : List Value) :
    Matches ρ (Value.moved ρ) (b.call host args) (b.call host (args.map (Value.moved ρ))) := by
  have shown (i : Nat) : Matches ρ id (Action.onHeap (display args i) : Action σ String)
      (Action.onHeap (display (args.map (Value.moved ρ)) i)) :=
    .onHeap fun heap => display_moved args i heap
  have counted (i : Nat) : Matches ρ id (Action.onHeap (number args i) : Action σ Float)
      (Action.onHeap (number (args.map (Value.moved ρ)) i)) :=
    .onHeap fun heap => number_moved args i heap
  cases b with
  | rect =>
    refine (Matches.onHeap (g := id) fun heap => ?_).bind fun _ => request_matches host _
    simp only [number_moved, color_moved, id]
  | pixel =>
    refine (Matches.onHeap (g := id) fun heap => ?_).bind fun _ => request_matches host _
    simp only [number_moved, color_moved, id]
  | clear =>
    have background : Matches ρ id (Action.read (·.canvas.background) : Action σ Color)
        (Action.read (·.canvas.background)) :=
      .read fun s t hs => (congrArg (·.canvas.background) hs.rest :)
    exact background.bind fun _ => request_matches host _
  | random => exact (Matches.ask host .random).bind fun _ => .pure rfl
  | round => exact math_matches _ args
  | floor => exact math_matches _ args
  | ceil => exact math_matches _ args
  | abs => exact math_matches _ args
  | sqrt => exact math_matches _ args
  | pow => exact (counted 0).bind fun _ => (counted 1).bind fun _ => .pure rfl
  | log => exact print_matches host _ _ args
  | warn => exact print_matches host _ _ args
  | error => exact print_matches host _ _ args
  | clearConsole => exact request_matches host _
  | exit => exact .interrupt .exit
  | wait => exact (counted 0).bind fun _ => request_matches host _
  | readFile =>
    refine (shown 0).bind fun path => (Matches.ask host (.readFile path)).bind fun reply => ?_
    exact (granted_matches _ reply).bind fun _ => .pure rfl
  | writeFile =>
    refine (shown 0).bind fun path => (shown 1).bind fun contents => ?_
    refine (Matches.ask host (.writeFile path contents)).bind fun reply => ?_
    exact (granted_matches _ reply).bind fun _ => .pure rfl
  | readDir =>
    refine (shown 0).bind fun path => (Matches.ask host (.readDir path)).bind fun reply => ?_
    refine (granted_matches _ reply).bind fun entries => ?_
    exact (entryValues_matches entries).bind fun vs => .newArray (List.map_toArray ..).symm
  | exec =>
    refine (shown 0).bind fun command => (Matches.ask host (.exec command)).bind fun reply => ?_
    exact (granted_matches _ reply).bind fun _ => .pure rfl

end Builtin

def Embedding.IgnoresPlaces (env : Embedding σ) : Prop :=
  ∀ c ∈ env.customs, ∀ (ρ : Renaming) (args : List Value),
    Matches ρ (Value.moved ρ) (c.call args) (c.call (args.map (Value.moved ρ)))

theorem Embedding.plain_ignoresPlaces (host : Host σ) : (Embedding.plain host).IgnoresPlaces :=
  fun _ hc => by cases hc

namespace Extras

open Value (arg arg_moved)

variable {ρ : Renaming} (args : List Value) (i : Nat)

theorem display_matches : Matches ρ id (Action.onHeap (arg args i).display : Action σ String)
    (Action.onHeap (arg (args.map (Value.moved ρ)) i).display) := by
  rw [arg_moved]
  exact .onHeap fun h => Value.display_moved ρ h _

theorem toNumber_matches : Matches ρ id (Action.onHeap (arg args i).toNumber : Action σ Float)
    (Action.onHeap (arg (args.map (Value.moved ρ)) i).toNumber) := by
  rw [arg_moved]
  exact .onHeap fun h => Value.toNumber_moved ρ h _

theorem channel_moved (v : Value) : channel (v.moved ρ) = channel v := by cases v <;> rfl

theorem del_matches :
    Matches ρ (Value.moved ρ) (del.call args : Action σ Value)
      (del.call (args.map (Value.moved ρ))) := by
  refine (display_matches args 0).bind fun name => ?_
  have found : Matches ρ id (Action.read (·.bindings.contains name) : Action σ Bool)
      (Action.read (·.bindings.contains name)) := by
    refine .read fun s t hs => ?_
    simp only [Std.HashMap.contains_eq_isSome_getElem?, hs.bindings, Option.isSome_map]
  have erased : Matches ρ id
      (Action.modify fun s => { s with bindings := s.bindings.erase name } : Action σ Unit)
      (Action.modify fun s => { s with bindings := s.bindings.erase name }) := by
    refine .modify fun s t hs => hs.withBindings (fun x => ?_) id
    simp only [Std.HashMap.getElem?_erase, hs.bindings]
    split <;> rfl
  exact found.bind fun b => erased.bind fun _ => .pure rfl

theorem signal_matches :
    Matches ρ (Value.moved ρ) (signal.call args : Action σ Value)
      (signal.call (args.map (Value.moved ρ))) := by
  simp only [signal, arg_moved]
  cases arg args 0 with
  | text kind =>
    simp only [Value.moved_text]
    split
    · exact .interrupt .break_
    · exact .interrupt .continue_
    · exact .interrupt .exit
    · exact .interrupt (.returned _)
  | _ => exact .interrupt (.returned _)

theorem ignoresPlaces (host : Host σ) : Embedding.IgnoresPlaces ⟨host, all host⟩ := by
  intro c hc ρ args
  simp only [all, List.mem_cons, List.not_mem_nil, or_false] at hc
  rcases hc with rfl | rfl | rfl | rfl | rfl | rfl | rfl | rfl | rfl | rfl
  · simp only [remember, arg_moved, List.length_map]
    exact (Matches.setVariable _ _).bind fun _ => .pure rfl
  · exact (display_matches args 0).bind fun message => .fail 0 0 rfl
  · exact (toNumber_matches args 0).bind fun line => (display_matches args 1).bind fun message =>
      .fail _ _ rfl
  · simp only [setBackground, arg_moved, channel_moved]
    refine Matches.bind (g := id) (.modifyRest ?_ ?_ ?_) fun _ => .pure rfl
    all_goals intros; rfl
  · refine (toNumber_matches args 0).bind fun depth => ?_
    refine Matches.bind (g := id) (.modifyRest ?_ ?_ ?_) fun _ => .pure rfl
    all_goals intros; rfl
  · exact del_matches args
  · exact signal_matches args
  · simp only [later]
    rw [arg_moved]
    refine (Matches.setVariable "requested" (arg args 0)).bind fun _ => ?_
    rw [← arg_moved]
    refine (display_matches args 0).bind fun text => ?_
    exact (Matches.ask host _).bind fun _ => .pure rfl
  · exact (display_matches args 0).bind fun message => .fail 0 0 rfl
  · simp only [rect, List.length_map]
    exact .pure rfl

end Extras

namespace Evaluator

theorem calleeName_moved (τ : Position → Position) (callee : Expr) (v : Value) :
    calleeName (callee.moved τ) (v.moved ρ) = calleeName callee v := by
  cases callee <;> first | rfl | exact congrArg CalleeName.ofKind (Value.kind_moved ρ v)

structure Relocated (env : Embedding σ) (ρ : Renaming) (n : Nat) : Prop where
  block : ∀ unit ss,
    Matches ρ id (block env n unit ss)
      (block env n (ρ.unit unit) (Stmt.movedList (ρ.place unit) ss))
  stmt : ∀ unit s,
    Matches ρ id (stmt env n unit s) (stmt env n (ρ.unit unit) (s.moved (ρ.place unit)))
  branches : ∀ unit bs otherwise, Matches ρ id (branches env n unit bs otherwise)
    (branches env n (ρ.unit unit) (Stmt.movedBranches (ρ.place unit) bs)
      (Stmt.movedOtherwise (ρ.place unit) otherwise))
  whileLoop : ∀ unit c body, Matches ρ id (whileLoop env n unit c body)
    (whileLoop env n (ρ.unit unit) (c.moved (ρ.place unit)) (Stmt.movedList (ρ.place unit) body))
  forLoop : ∀ unit counter count body k, Matches ρ id (forLoop env n unit counter count body k)
    (forLoop env n (ρ.unit unit) counter count (Stmt.movedList (ρ.place unit) body) k)
  expr : ∀ (τ : Position → Position) e,
    Matches ρ (Value.moved ρ) (expr env n e) (expr env n (e.moved τ))
  exprs : ∀ (τ : Position → Position) es,
    Matches ρ (List.map (Value.moved ρ)) (exprs env n es) (exprs env n (Expr.movedList τ es))
  properties : ∀ (τ : Position → Position) ps fields,
    Matches ρ (Fields.map (Value.moved ρ)) (properties env n ps fields)
      (properties env n (Expr.movedProperties τ ps) (fields.map (Value.moved ρ)))
  interpolated : ∀ p q segments done,
    Matches ρ id (interpolated env n p segments done) (interpolated env n q segments done)
  place : ∀ (τ : Position → Position) target,
    Matches ρ (Place.moved ρ) (place env n target) (place env n (target.moved τ))
  call : ∀ f args line line', Matches ρ (Value.moved ρ) (call env n f args line)
    (call env n (f.moved ρ) (args.map (Value.moved ρ)) line')

theorem relocated_zero {env : Embedding σ} : Relocated env ρ 0 := by
  constructor <;> intros <;>
    simp only [block, stmt, branches, whileLoop, forLoop, expr, exprs, properties, interpolated,
      place, call] <;>
    exact .outOfFuel

namespace Relocated

variable {env : Embedding σ} {n : Nat} (k : Relocated env ρ n) (unit : Nat)
  (τ : Position → Position)
include k

section Statements

theorem block_succ (ss : List Stmt) : Matches ρ id (Evaluator.block env (n + 1) unit ss)
    (Evaluator.block env (n + 1) (ρ.unit unit) (Stmt.movedList (ρ.place unit) ss)) := by
  cases ss with
  | nil =>
    simp only [Stmt.movedList, Evaluator.block]
    exact .pure rfl
  | cons s rest =>
    simp only [Stmt.movedList, Evaluator.block]
    exact (k.stmt unit s).bind fun _ => k.block unit rest

theorem stmt_succ (s : Stmt) : Matches ρ id (Evaluator.stmt env (n + 1) unit s)
    (Evaluator.stmt env (n + 1) (ρ.unit unit) (s.moved (ρ.place unit))) := by
  cases s with
  | function name params body p =>
    simp only [Stmt.moved, Evaluator.stmt]
    exact .setVariable name (.function ⟨unit, ⟨name, params, body, p⟩⟩)
  | return_ value p =>
    cases value with
    | none =>
      simp only [Stmt.moved, Evaluator.stmt]
      exact .interrupt (.returned .null)
    | some e =>
      simp only [Stmt.moved, Evaluator.stmt]
      exact (k.expr _ e).bind fun v => .interrupt (.returned v)
  | branch c body elseifs otherwise p =>
    simp only [Stmt.moved, Evaluator.stmt]
    exact k.branches unit ((c, body) :: elseifs) otherwise
  | while_ c body p =>
    simp only [Stmt.moved, Evaluator.stmt]
    exact k.whileLoop unit c body
  | for_ counter count body p =>
    simp only [Stmt.moved, Evaluator.stmt]
    have counted (v : Value) : Matches ρ id
        (Action.onHeap fun h => Number.countBelow (v.toNumber h) : Action σ Nat)
        (Action.onHeap fun h => Number.countBelow ((v.moved ρ).toNumber h)) :=
      .onHeap fun h => congrArg Number.countBelow (Value.toNumber_moved ρ h v)
    exact (k.expr _ count).bind fun v => (counted v).bind fun m =>
      k.forLoop unit counter m body 0
  | break_ p =>
    simp only [Stmt.moved, Evaluator.stmt]
    exact .interrupt .break_
  | continue_ p =>
    simp only [Stmt.moved, Evaluator.stmt]
    exact .interrupt .continue_
  | expr e =>
    simp only [Stmt.moved, Evaluator.stmt]
    exact (k.expr _ e).bind fun _ => .pure rfl

theorem branches_succ (bs : List (Expr × List Stmt)) (otherwise : Option (List Stmt)) :
    Matches ρ id (Evaluator.branches env (n + 1) unit bs otherwise)
      (Evaluator.branches env (n + 1) (ρ.unit unit) (Stmt.movedBranches (ρ.place unit) bs)
        (Stmt.movedOtherwise (ρ.place unit) otherwise)) := by
  match bs, otherwise with
  | [], none =>
    simp only [Stmt.movedBranches, Stmt.movedOtherwise, Evaluator.branches]
    exact .pure rfl
  | [], some body =>
    simp only [Stmt.movedBranches, Stmt.movedOtherwise, Evaluator.branches]
    exact k.block unit body
  | (c, body) :: rest, otherwise =>
    simp only [Stmt.movedBranches, Evaluator.branches]
    refine (k.expr _ c).bind fun v => ?_
    rw [Value.truthy_moved]
    split
    · exact k.block unit body
    · exact k.branches unit rest otherwise

theorem whileLoop_succ (c : Expr) (body : List Stmt) :
    Matches ρ id (Evaluator.whileLoop env (n + 1) unit c body)
      (Evaluator.whileLoop env (n + 1) (ρ.unit unit) (c.moved (ρ.place unit))
        (Stmt.movedList (ρ.place unit) body)) := by
  simp only [Evaluator.whileLoop]
  refine (k.expr _ c).bind fun v => ?_
  rw [Value.truthy_moved]
  split
  · refine (k.block unit body).loopBody.bind fun goesOn => ?_
    cases goesOn with
    | true => exact k.whileLoop unit c body
    | false => exact .pure rfl
  · exact .pure rfl

theorem forLoop_succ (counter : String) (count : Nat) (body : List Stmt) (i : Nat) :
    Matches ρ id (Evaluator.forLoop env (n + 1) unit counter count body i)
      (Evaluator.forLoop env (n + 1) (ρ.unit unit) counter count
        (Stmt.movedList (ρ.place unit) body) i) := by
  simp only [Evaluator.forLoop]
  split
  · refine (Matches.setVariable counter (.number (Number.ofNat i))).bind fun _ => ?_
    refine (k.block unit body).loopBody.bind fun goesOn => ?_
    cases goesOn with
    | true => exact k.forLoop unit counter count body (nextCount i)
    | false => exact .pure rfl
  · exact .pure rfl

end Statements

section Expressions

theorem literal_succ (l : Literal) (p : Position) :
    Matches ρ (Value.moved ρ) (Evaluator.expr env (n + 1) (.literal l p))
      (Evaluator.expr env (n + 1) ((Expr.literal l p).moved τ)) := by
  cases l with
  | text s =>
    simp only [Expr.moved, Evaluator.expr]
    split
    · exact (k.interpolated p (τ p) (Marker.segments s) "").bind fun t => .pure rfl
    · exact .pure rfl
  | _ =>
    simp only [Expr.moved, Evaluator.expr]
    exact .pure rfl

theorem expr_succ (e : Expr) : Matches ρ (Value.moved ρ) (Evaluator.expr env (n + 1) e)
    (Evaluator.expr env (n + 1) (e.moved τ)) := by
  cases e with
  | literal l p =>
    exact k.literal_succ τ l p
  | «variable» name p =>
    simp only [Expr.moved, Evaluator.expr]
    exact .variable_ p.line (τ p).line name
  | assign target value p =>
    simp only [Expr.moved, Evaluator.expr]
    exact (k.expr τ value).bind fun v => (k.place τ target).bind fun place =>
      (Matches.writePlace p.line (τ p).line place v).bind fun _ => .pure rfl
  | compound op target value p =>
    simp only [Expr.moved, Evaluator.expr]
    refine (k.place τ target).bind fun place => ?_
    refine (Matches.readPlace p.line (τ p).line place).bind fun old => ?_
    refine (k.expr τ value).bind fun v => ?_
    refine (Matches.onHeap fun h => Value.arith_moved ρ h op old v).bind fun new => ?_
    exact (Matches.writePlace p.line (τ p).line place new).bind fun _ => .pure rfl
  | update op name p =>
    simp only [Expr.moved, Evaluator.expr]
    exact .update op name
  | unary op operand p =>
    simp only [Expr.moved, Evaluator.expr]
    exact (k.expr τ operand).bind fun v => .onHeap fun h => Value.unary_moved ρ h op v
  | binary op left right p =>
    simp only [Expr.moved, Evaluator.expr]
    exact (k.expr τ left).bind fun a => (k.expr τ right).bind fun b =>
      .onHeap fun h => Value.binary_moved ρ h op a b
  | call callee args p =>
    simp only [Expr.moved, Evaluator.expr]
    refine (k.expr τ callee).bind fun f => (k.exprs τ args).bind fun vs => ?_
    rw [Value.isCallable_moved, calleeName_moved]
    split
    · exact k.call f vs p.line (τ p).line
    · exact .fail p.line (τ p).line rfl
  | member owner property p =>
    simp only [Expr.moved, Evaluator.expr]
    exact (k.expr τ owner).bind fun v =>
      .readPlace p.line (τ p).line (.member v property)
  | index owner i p =>
    simp only [Expr.moved, Evaluator.expr]
    exact (k.expr τ owner).bind fun v => (k.expr τ i).bind fun w =>
      .readPlace p.line (τ p).line (.index v w)
  | array items p =>
    simp only [Expr.moved, Evaluator.expr]
    exact (k.exprs τ items).bind fun vs => .newArray (List.map_toArray ..).symm
  | object ps p =>
    simp only [Expr.moved, Evaluator.expr]
    exact (k.properties τ ps .empty).bind fun fields => .newObject rfl

theorem exprs_succ (es : List Expr) :
    Matches ρ (List.map (Value.moved ρ)) (Evaluator.exprs env (n + 1) es)
      (Evaluator.exprs env (n + 1) (Expr.movedList τ es)) := by
  cases es with
  | nil =>
    simp only [Expr.movedList, Evaluator.exprs]
    exact .pure rfl
  | cons e es =>
    simp only [Expr.movedList, Evaluator.exprs]
    exact (k.expr τ e).bind fun v => (k.exprs τ es).bind fun vs => .pure rfl

theorem properties_succ (ps : List (String × Expr)) (fields : Fields Value) :
    Matches ρ (Fields.map (Value.moved ρ)) (Evaluator.properties env (n + 1) ps fields)
      (Evaluator.properties env (n + 1) (Expr.movedProperties τ ps)
        (fields.map (Value.moved ρ))) := by
  cases ps with
  | nil =>
    simp only [Expr.movedProperties, Evaluator.properties]
    exact .pure rfl
  | cons property rest =>
    obtain ⟨key, e⟩ := property
    simp only [Expr.movedProperties, Evaluator.properties]
    refine (k.expr τ e).bind fun v => ?_
    rw [Fields.set_map]
    exact k.properties τ rest (fields.set key v)

theorem interpolated_succ (p q : Position) (segments : List Segment) (done : String) :
    Matches ρ id (Evaluator.interpolated env (n + 1) p segments done)
      (Evaluator.interpolated env (n + 1) q segments done) := by
  match segments with
  | [] =>
    simp only [Evaluator.interpolated]
    exact .pure rfl
  | .text s :: rest =>
    simp only [Evaluator.interpolated]
    exact k.interpolated p q rest (done ++ s)
  | .expr source :: rest =>
    simp only [Evaluator.interpolated]
    rcases Marker.parse_same source p q with ⟨e, τ, atP, atQ⟩ | ⟨ds, es, atP, atQ, same⟩
    · simp only [atP, atQ]
      refine (k.expr τ e).bind fun v => ?_
      have shown : Matches ρ id (Action.onHeap v.display : Action σ String)
          (Action.onHeap (v.moved ρ).display) :=
        .onHeap fun h => Value.display_moved ρ h v
      exact shown.bind fun t => k.interpolated p q rest (done ++ t)
    · simp only [atP, atQ]
      exact .fail p.line q.line (congrArg (Failure.marker source) same)

theorem place_succ (target : Target) :
    Matches ρ (Place.moved ρ) (Evaluator.place env (n + 1) target)
      (Evaluator.place env (n + 1) (target.moved τ)) := by
  cases target with
  | «variable» name =>
    simp only [Target.moved, Evaluator.place]
    exact .pure rfl
  | member owner property =>
    simp only [Target.moved, Evaluator.place]
    exact (k.expr τ owner).bind fun v => .pure rfl
  | index owner i =>
    simp only [Target.moved, Evaluator.place]
    exact (k.expr τ owner).bind fun v => (k.expr τ i).bind fun w => .pure rfl

theorem call_succ (hc : env.IgnoresPlaces) (f : Value) (args : List Value) (line line' : Nat) :
    Matches ρ (Value.moved ρ) (Evaluator.call env (n + 1) f args line)
      (Evaluator.call env (n + 1) (f.moved ρ) (args.map (Value.moved ρ)) line') := by
  match f with
  | .function f =>
    simp only [Value.moved, Evaluator.call]
    exact .callFunction line line' f args (k.block f.unit f.decl.body)
  | .native (.builtin b) =>
    simp only [Value.moved, Evaluator.call]
    exact .attributed line line' (b.call_matches env.host args)
  | .native (.custom slot name suspends) =>
    simp only [Value.moved, Evaluator.call]
    cases hs : env.customs[slot]? with
    | none => exact .fail line line' rfl
    | some c => exact .attributed line line' (hc c (List.mem_of_getElem? hs) ρ args)
  | .method receiver m =>
    simp only [Value.moved, Evaluator.call]
    exact .callMethod line line' m receiver args
  | .number _ | .text _ | .bool _ | .null | .undefined | .array _ | .object _ =>
    simp only [Value.moved, Evaluator.call]
    exact .fail line line' rfl

end Expressions

end Relocated

theorem relocated {env : Embedding σ} (hc : env.IgnoresPlaces) (ρ : Renaming) (n : Nat) :
    Relocated env ρ n := by
  induction n with
  | zero => exact relocated_zero
  | succ n k =>
    exact {
      block := k.block_succ
      stmt := k.stmt_succ
      branches := k.branches_succ
      whileLoop := k.whileLoop_succ
      forLoop := k.forLoop_succ
      expr := k.expr_succ
      exprs := k.exprs_succ
      properties := k.properties_succ
      interpolated := k.interpolated_succ
      place := k.place_succ
      call := k.call_succ hc }

end Evaluator

end CanvasScript
