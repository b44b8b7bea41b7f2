import CanvasScript.Proofs.Frames.Calls

namespace CanvasScript

open CanvasScript.Action (Keeps)

variable {σ : Type} {program : List Stmt} {host : Host σ} {outer : String → Option Value}

def Value.DeclaredIn (program : List Stmt) (v : Value) : Prop :=
  ∀ f, v = .function f → ∃ t ∈ program, t.Declares f.decl

theorem Value.onlyFunctions_declaredIn (program : List Stmt) :
    OnlyFunctions (DeclaredIn program) := by
  constructor
  · rintro v hv f rfl
    cases hv
  · intro v m f h
    cases h

theorem upholds_declaredIn (program : List Stmt) (host : Host σ) :
    Evaluator.Upholds (.plain host) (Value.DeclaredIn program) (fun _ => True) (fun _ => True) where
  values := Value.onlyFunctions_declaredIn program
  declared f hf t ht d hd g hg := by
    cases hg
    obtain ⟨s, hs, hf⟩ := hf f rfl
    exact ⟨s, hs, hf.trans (.within ht hd)⟩
  signals _ _ _ _ _ _ := .inr trivial
  builtin b args _ _ :=
    Builtin.call_keeps (Value.onlyFunctions_declaredIn program) b args fun _ _ _ _ => trivial
  custom c hc := by simp [Embedding.plain] at hc

namespace Scope

variable {bound : String → Prop}

def Sees (c : Scope bound) (e : Expr) : Prop := ∀ name, e.Mentions name → c.Visible name

def Covers (c : Scope bound) (s : Stmt) : Prop := ∀ name, s.Mentions name → c.Visible name

variable {c : Scope bound}

theorem Sees.part {e d : Expr} (h : c.Sees e) (hd : d ∈ e.parts) : c.Sees d :=
  fun name hm => h name (.part hd hm)

theorem Covers.expr {s : Stmt} {e : Expr} (h : c.Covers s) (he : e ∈ s.exprs) : c.Sees e :=
  fun name hm => h name (.expr he hm)

theorem Covers.inner {s : Stmt} (h : c.Covers s) : ∀ t ∈ s.inner, c.Covers t :=
  fun _ ht name hm => h name (.inner ht hm)

end Scope

structure Simulated (program : List Stmt) (host : Host σ) (outer : String → Option Value)
    (n : Nat) : Prop where
  block : ∀ (c : Scope (IsParameter program)) unit ss,
    Value.Admits (Value.DeclaredIn program) unit ss → (∀ s ∈ ss, c.Covers s) →
    c.Mirrors outer (Value.DeclaredIn program) (Evaluator.block (.plain host) n unit ss)
      (Local.block host n unit ss)
  stmt : ∀ (c : Scope (IsParameter program)) unit s,
    Value.Admits (Value.DeclaredIn program) unit [s] → c.Covers s →
    c.Mirrors outer (Value.DeclaredIn program) (Evaluator.stmt (.plain host) n unit s)
      (Local.stmt host n unit s)
  branches : ∀ (c : Scope (IsParameter program)) unit bs otherwise,
    Value.Admits (Value.DeclaredIn program) unit (bs.flatMap (·.2) ++ otherwise.getD []) →
    (∀ b ∈ bs, c.Sees b.1) → (∀ t ∈ bs.flatMap (·.2) ++ otherwise.getD [], c.Covers t) →
    c.Mirrors outer (Value.DeclaredIn program)
      (Evaluator.branches (.plain host) n unit bs otherwise)
      (Local.branches host n unit bs otherwise)
  whileLoop : ∀ (c : Scope (IsParameter program)) unit e body,
    Value.Admits (Value.DeclaredIn program) unit body → c.Sees e → (∀ t ∈ body, c.Covers t) →
    c.Mirrors outer (Value.DeclaredIn program) (Evaluator.whileLoop (.plain host) n unit e body)
      (Local.whileLoop host n unit e body)
  forLoop : ∀ (c : Scope (IsParameter program)) unit counter count body k,
    Value.Admits (Value.DeclaredIn program) unit body → c.Visible counter →
    (∀ t ∈ body, c.Covers t) →
    c.Mirrors outer (Value.DeclaredIn program)
      (Evaluator.forLoop (.plain host) n unit counter count body k)
      (Local.forLoop host n unit counter count body k)
  expr : ∀ (c : Scope (IsParameter program)) e, c.Sees e →
    c.Mirrors outer (Value.DeclaredIn program) (Evaluator.expr (.plain host) n e)
      (Local.expr host n e)
  exprs : ∀ (c : Scope (IsParameter program)) es, (∀ e ∈ es, c.Sees e) →
    c.Mirrors outer (Value.DeclaredIn program) (Evaluator.exprs (.plain host) n es)
      (Local.exprs host n es)
  properties : ∀ (c : Scope (IsParameter program)) ps fields, (∀ p ∈ ps, c.Sees p.2) →
    c.Mirrors outer (Value.DeclaredIn program) (Evaluator.properties (.plain host) n ps fields)
      (Local.properties host n ps fields)
  interpolated : ∀ (c : Scope (IsParameter program)) p segments done,
    (∀ source, .expr source ∈ segments → ∀ e, Marker.parse source p = .ok e → c.Sees e) →
    c.Mirrors outer (Value.DeclaredIn program)
      (Evaluator.interpolated (.plain host) n p segments done)
      (Local.interpolated host n p segments done)
  place : ∀ (c : Scope (IsParameter program)) target, (∀ e ∈ target.parts, c.Sees e) →
    c.Mirrors outer (Value.DeclaredIn program) (Evaluator.place (.plain host) n target)
      (Local.place host n target)
  call : ∀ (c : Scope (IsParameter program)) f args line, f.DeclaredIn program →
    (∀ v ∈ args, v.DeclaredIn program) →
    c.Mirrors outer (Value.DeclaredIn program) (Evaluator.call (.plain host) n f args line)
      (Local.call host n f args line)

theorem simulated_zero : Simulated program host outer 0 := by
  constructor <;> intros <;>
    simp only [Evaluator.block, Evaluator.stmt, Evaluator.branches, Evaluator.whileLoop,
      Evaluator.forLoop, Evaluator.expr, Evaluator.exprs, Evaluator.properties,
      Evaluator.interpolated, Evaluator.place, Evaluator.call, Local.block, Local.stmt,
      Local.branches, Local.whileLoop, Local.forLoop, Local.expr, Local.exprs, Local.properties,
      Local.interpolated, Local.place, Local.call] <;>
    exact .global .outOfFuel

namespace Simulated

variable {n : Nat} (m : Simulated program host outer n) {c : Scope (IsParameter program)}

theorem keeps (program : List Stmt) (host : Host σ) (n : Nat) :
    Evaluator.Kept (.plain host) (Value.DeclaredIn program) (fun _ => True) (fun _ => True) n :=
  Evaluator.kept (upholds_declaredIn program host) n

theorem place_reaches (program : List Stmt) (host : Host σ) (n : Nat) {target : Target}
    (h : ∀ name ∈ target.names, c.Visible name) :
    Keeps (Value.DeclaredIn program) (fun _ => True) (Scope.Mirrors.Reaches c) (fun _ => True)
      (Evaluator.place (.plain host) n target) := by
  have any (e : Expr) : Keeps (Value.DeclaredIn program) (fun _ => True)
      (Value.DeclaredIn program) (fun _ => True) (Evaluator.expr (.plain host) (n - 1) e) :=
    ((keeps program host (n - 1)).expr e).mono (fun _ => id) fun _ _ => trivial
  cases n with
  | zero =>
    rw [Evaluator.place]
    exact .outOfFuel trivial
  | succ n =>
    rcases target with name | ⟨owner, property⟩ | ⟨owner, i⟩
    · rw [Evaluator.place]
      exact .pure (h name (List.mem_singleton_self name))
    · rw [Evaluator.place]
      exact (any owner).bind fun v _ => .pure trivial
    · rw [Evaluator.place]
      exact (any owner).bind fun v _ => (any i).bind fun w _ => .pure trivial

include m

theorem block_succ (unit : Nat) (ss : List Stmt)
    (ha : Value.Admits (Value.DeclaredIn program) unit ss) (hc : ∀ s ∈ ss, c.Covers s) :
    c.Mirrors outer (Value.DeclaredIn program) (Evaluator.block (.plain host) (n + 1) unit ss)
      (Local.block host (n + 1) unit ss) := by
  cases ss with
  | nil =>
    rw [Evaluator.block, Local.block]
    exact .pure ()
  | cons s rest =>
    rw [Evaluator.block, Local.block]
    obtain ⟨hs, hr⟩ := List.forall_mem_cons.1 hc
    have has : Value.Admits (Value.DeclaredIn program) unit [s] :=
      ha.mono fun t ht => by simp_all
    have har := ha.mono fun t ht => List.mem_cons_of_mem s ht
    exact (m.stmt c unit s has hs).bind ((keeps program host n).stmt unit s has) fun _ _ =>
      m.block c unit rest har hr

theorem branches_succ (unit : Nat) (bs : List (Expr × List Stmt)) (otherwise : Option (List Stmt))
    (ha : Value.Admits (Value.DeclaredIn program) unit (bs.flatMap (·.2) ++ otherwise.getD []))
    (hb : ∀ b ∈ bs, c.Sees b.1)
    (hc : ∀ t ∈ bs.flatMap (·.2) ++ otherwise.getD [], c.Covers t) :
    c.Mirrors outer (Value.DeclaredIn program)
      (Evaluator.branches (.plain host) (n + 1) unit bs otherwise)
      (Local.branches host (n + 1) unit bs otherwise) := by
  match bs, otherwise with
  | [], none =>
    rw [Evaluator.branches, Local.branches]
    exact .pure ()
  | [], some body =>
    rw [Evaluator.branches, Local.branches]
    exact m.block c unit body ha hc
  | (e, body) :: rest, otherwise =>
    rw [Evaluator.branches, Local.branches]
    have hbody : ∀ t ∈ body, t ∈ ((e, body) :: rest).flatMap (·.2) ++ otherwise.getD [] := by
      intro t ht
      simp [ht]
    have hrest : ∀ t ∈ rest.flatMap (·.2) ++ otherwise.getD [],
        t ∈ ((e, body) :: rest).flatMap (·.2) ++ otherwise.getD [] := by
      intro t ht
      rw [List.flatMap_cons, List.append_assoc]
      exact List.mem_append_right _ ht
    obtain ⟨he, hr⟩ := List.forall_mem_cons.1 hb
    refine (m.expr c e he).bind ((keeps program host n).expr e) fun v _ => ?_
    split
    · exact m.block c unit body (ha.mono hbody) fun t ht => hc t (hbody t ht)
    · exact m.branches c unit rest otherwise (ha.mono hrest) hr fun t ht => hc t (hrest t ht)

theorem loopBody (unit : Nat) (body : List Stmt)
    (ha : Value.Admits (Value.DeclaredIn program) unit body) (hc : ∀ t ∈ body, c.Covers t) :
    c.Mirrors outer (Value.DeclaredIn program)
        (Action.loopBody (Evaluator.block (.plain host) n unit body))
        (Local.loopBody (Local.block host n unit body)) ∧
      Keeps (Value.DeclaredIn program) (fun _ => True) (fun _ => True)
        (Stop.Within (Value.DeclaredIn program) fun _ => True)
        (Action.loopBody (Evaluator.block (.plain host) n unit body)) :=
  ⟨.loopBody (m.block c unit body ha hc),
    ((keeps program host n).block unit body ha).loopBody fun _ => trivial⟩

theorem whileLoop_succ (unit : Nat) (e : Expr) (body : List Stmt)
    (ha : Value.Admits (Value.DeclaredIn program) unit body) (he : c.Sees e)
    (hc : ∀ t ∈ body, c.Covers t) :
    c.Mirrors outer (Value.DeclaredIn program)
      (Evaluator.whileLoop (.plain host) (n + 1) unit e body)
      (Local.whileLoop host (n + 1) unit e body) := by
  rw [Evaluator.whileLoop, Local.whileLoop]
  have hl := m.loopBody unit body ha hc
  refine (m.expr c e he).bind ((keeps program host n).expr e) fun v _ => ?_
  split
  · refine hl.1.bind hl.2 fun goesOn _ => ?_
    split
    · exact m.whileLoop c unit e body ha he hc
    · exact .pure ()
  · exact .pure ()

theorem forLoop_succ (unit : Nat) (counter : String) (count : Nat) (body : List Stmt) (k : Nat)
    (ha : Value.Admits (Value.DeclaredIn program) unit body) (hn : c.Visible counter)
    (hc : ∀ t ∈ body, c.Covers t) :
    c.Mirrors outer (Value.DeclaredIn program)
      (Evaluator.forLoop (.plain host) (n + 1) unit counter count body k)
      (Local.forLoop host (n + 1) unit counter count body k) := by
  rw [Evaluator.forLoop, Local.forLoop]
  have hl := m.loopBody unit body ha hc
  have data : (Value.number (Number.ofNat k)).DeclaredIn program :=
    (Value.onlyFunctions_declaredIn program).data _ rfl
  split
  · refine (Scope.Mirrors.setVariable hn _).bind
      (Keeps.setVariable (S := fun _ => True) data) fun _ _ => ?_
    refine hl.1.bind hl.2 fun goesOn _ => ?_
    split
    · exact m.forLoop c unit counter count body _ ha hn hc
    · exact .pure ()
  · exact .pure ()

theorem stmt_succ (unit : Nat) (s : Stmt)
    (ha : Value.Admits (Value.DeclaredIn program) unit [s]) (hc : c.Covers s) :
    c.Mirrors outer (Value.DeclaredIn program) (Evaluator.stmt (.plain host) (n + 1) unit s)
      (Local.stmt host (n + 1) unit s) := by
  have hi := Value.Admits.inner ha
  match s with
  | .function name params body p =>
    rw [Evaluator.stmt, Local.stmt]
    exact .setVariable (hc name (.root (List.mem_singleton_self name))) _
  | .return_ none p =>
    rw [Evaluator.stmt, Local.stmt]
    exact .global (.interrupt _)
  | .return_ (some e) p =>
    rw [Evaluator.stmt, Local.stmt]
    have he := hc.expr (List.mem_singleton_self e)
    exact (m.expr c e he).bind ((keeps program host n).expr e) fun v _ => .global (.interrupt _)
  | .branch e body elseifs otherwise p =>
    rw [Evaluator.stmt, Local.stmt]
    refine m.branches c unit ((e, body) :: elseifs) otherwise hi (fun b hb => ?_) hc.inner
    exact hc.expr (List.mem_map_of_mem (f := (·.1)) hb)
  | .while_ e body p =>
    rw [Evaluator.stmt, Local.stmt]
    exact m.whileLoop c unit e body hi (hc.expr (List.mem_singleton_self e)) hc.inner
  | .for_ counter count body p =>
    rw [Evaluator.stmt, Local.stmt]
    have he := hc.expr (List.mem_singleton_self count)
    have hn := hc counter (.root (List.mem_singleton_self counter))
    refine (m.expr c count he).bind ((keeps program host n).expr count) fun v _ => ?_
    refine (Scope.Mirrors.global (.onHeap _)).bind
      (Keeps.onHeap (Q := fun _ => True) (S := fun _ => True) fun _ => trivial) fun k _ => ?_
    exact m.forLoop c unit counter k body 0 hi hn hc.inner
  | .break_ p =>
    rw [Evaluator.stmt, Local.stmt]
    exact .global (.interrupt _)
  | .continue_ p =>
    rw [Evaluator.stmt, Local.stmt]
    exact .global (.interrupt _)
  | .expr e =>
    rw [Evaluator.stmt, Local.stmt]
    have he := hc.expr (List.mem_singleton_self e)
    exact (m.expr c e he).bind ((keeps program host n).expr e) fun _ _ => .pure ()

theorem exprs_succ (es : List Expr) (h : ∀ e ∈ es, c.Sees e) :
    c.Mirrors outer (Value.DeclaredIn program) (Evaluator.exprs (.plain host) (n + 1) es)
      (Local.exprs host (n + 1) es) := by
  cases es with
  | nil =>
    rw [Evaluator.exprs, Local.exprs]
    exact .pure []
  | cons e es =>
    rw [Evaluator.exprs, Local.exprs]
    obtain ⟨he, hes⟩ := List.forall_mem_cons.1 h
    refine (m.expr c e he).bind ((keeps program host n).expr e) fun v _ => ?_
    exact (m.exprs c es hes).bind ((keeps program host n).exprs es) fun vs _ => .pure _

theorem properties_succ (ps : List (String × Expr)) (fields : Fields Value)
    (h : ∀ p ∈ ps, c.Sees p.2) :
    c.Mirrors outer (Value.DeclaredIn program)
      (Evaluator.properties (.plain host) (n + 1) ps fields)
      (Local.properties host (n + 1) ps fields) := by
  match ps with
  | [] =>
    rw [Evaluator.properties, Local.properties]
    exact .pure fields
  | (key, e) :: rest =>
    rw [Evaluator.properties, Local.properties]
    obtain ⟨he, hr⟩ := List.forall_mem_cons.1 h
    exact (m.expr c e he).bind ((keeps program host n).expr e) fun v _ =>
      m.properties c rest _ hr

theorem interpolated_succ (p : Position) (segments : List Segment) (done : String)
    (h : ∀ source, .expr source ∈ segments → ∀ e, Marker.parse source p = .ok e → c.Sees e) :
    c.Mirrors outer (Value.DeclaredIn program)
      (Evaluator.interpolated (.plain host) (n + 1) p segments done)
      (Local.interpolated host (n + 1) p segments done) := by
  match segments with
  | [] =>
    rw [Evaluator.interpolated, Local.interpolated]
    exact .pure done
  | .text s :: rest =>
    rw [Evaluator.interpolated, Local.interpolated]
    exact m.interpolated c p rest _ fun source hs => h source (List.mem_cons_of_mem _ hs)
  | .expr source :: rest =>
    rw [Evaluator.interpolated, Local.interpolated]
    have hr := fun other hs => h other (List.mem_cons_of_mem (Segment.expr source) hs)
    cases he : Marker.parse source p with
    | error problems => exact .global (.interrupt _)
    | ok e =>
      have hs := h source List.mem_cons_self e he
      refine (m.expr c e hs).bind ((keeps program host n).expr e) fun v _ => ?_
      refine (Scope.Mirrors.global (.onHeap _)).bind
        (Keeps.onHeap (Q := fun _ => True) (S := fun _ => True) fun _ => trivial) fun t _ => ?_
      exact m.interpolated c p rest _ hr

theorem place_succ (target : Target) (h : ∀ e ∈ target.parts, c.Sees e) :
    c.Mirrors outer (Value.DeclaredIn program) (Evaluator.place (.plain host) (n + 1) target)
      (Local.place host (n + 1) target) := by
  match target with
  | .variable name =>
    rw [Evaluator.place, Local.place]
    exact .pure _
  | .member owner property =>
    rw [Evaluator.place, Local.place]
    have ho := h owner List.mem_cons_self
    exact (m.expr c owner ho).bind ((keeps program host n).expr owner) fun v _ => .pure _
  | .index owner i =>
    rw [Evaluator.place, Local.place]
    have ho := h owner List.mem_cons_self
    have hi := h i (List.mem_cons_of_mem _ List.mem_cons_self)
    exact (m.expr c owner ho).bind ((keeps program host n).expr owner) fun v _ =>
      (m.expr c i hi).bind ((keeps program host n).expr i) fun w _ => .pure _

theorem expr_succ (e : Expr) (h : c.Sees e) :
    c.Mirrors outer (Value.DeclaredIn program) (Evaluator.expr (.plain host) (n + 1) e)
      (Local.expr host (n + 1) e) := by
  have k := keeps program host n
  have part {d : Expr} (hd : d ∈ e.parts) := m.expr c d (h.part hd)
  match e with
  | .literal (.text s) p =>
    rw [Evaluator.expr, Local.expr]
    split
    · have hs : ∀ source, .expr source ∈ Marker.segments s → ∀ d, Marker.parse source p = .ok d →
          c.Sees d := fun source hm d hd name hn => h name (.marker hm hd hn)
      exact (m.interpolated c p _ "" hs).bind (k.interpolated p _ "") fun t _ => .pure _
    · exact .pure _
  | .literal (.number x) p =>
    simp only [Evaluator.expr, Local.expr]
    exact .pure _
  | .literal (.bool b) p =>
    simp only [Evaluator.expr, Local.expr]
    exact .pure _
  | .literal .null p =>
    simp only [Evaluator.expr, Local.expr]
    exact .pure _
  | .literal .undefined p =>
    simp only [Evaluator.expr, Local.expr]
    exact .pure _
  | .variable name p =>
    rw [Evaluator.expr, Local.expr]
    exact .variable_ (h name (.root (List.mem_singleton_self name))) p.line
  | .assign target value p =>
    rw [Evaluator.expr, Local.expr]
    have ht : ∀ d ∈ target.parts, c.Sees d := fun d hd => h.part (List.mem_append_left _ hd)
    have hn : ∀ name ∈ target.names, c.Visible name := fun name hn => h name (.root hn)
    refine (part (List.mem_append_right _ (List.mem_singleton_self value))).bind (k.expr value)
      fun v hv => ?_
    refine (m.place c target ht).bind (place_reaches program host n hn) fun place hp => ?_
    exact (Scope.Mirrors.writePlace hp v p.line).bind
      (Keeps.writePlace (W := fun _ => True) (Value.onlyFunctions_declaredIn program) hv)
      fun _ _ => .pure _
  | .compound op target value p =>
    rw [Evaluator.expr, Local.expr]
    have hV := Value.onlyFunctions_declaredIn program
    have ht : ∀ d ∈ target.parts, c.Sees d := fun d hd => h.part (List.mem_append_left _ hd)
    have hn : ∀ name ∈ target.names, c.Visible name := fun name hn => h name (.root hn)
    refine (m.place c target ht).bind (place_reaches program host n hn) fun place hp => ?_
    refine (Scope.Mirrors.readPlace hp p.line).bind (Keeps.readPlace (W := fun _ => True) hV)
      fun old _ => ?_
    refine (part (List.mem_append_right _ (List.mem_singleton_self value))).bind (k.expr value)
      fun v _ => ?_
    refine (Scope.Mirrors.global (.onHeap _)).bind
      (Keeps.onHeap (S := fun _ => True) fun heap => hV.arith heap op old v) fun new hnew => ?_
    exact (Scope.Mirrors.writePlace hp new p.line).bind
      (Keeps.writePlace (W := fun _ => True) hV hnew) fun _ _ => .pure _
  | .update op name p =>
    rw [Evaluator.expr, Local.expr]
    exact .update (h name (.root (List.mem_singleton_self name))) op
  | .unary op operand p =>
    rw [Evaluator.expr, Local.expr]
    exact (part List.mem_cons_self).bind (k.expr operand) fun v _ => .global (.onHeap _)
  | .binary op left right p =>
    rw [Evaluator.expr, Local.expr]
    refine (part List.mem_cons_self).bind (k.expr left) fun a _ => ?_
    exact (part (List.mem_cons_of_mem _ List.mem_cons_self)).bind (k.expr right) fun b _ =>
      .global (.onHeap _)
  | .call callee args p =>
    rw [Evaluator.expr, Local.expr]
    have ha : ∀ d ∈ args, c.Sees d := fun d hd => h.part (List.mem_cons_of_mem _ hd)
    refine (part List.mem_cons_self).bind (k.expr callee) fun f hf => ?_
    refine (m.exprs c args ha).bind (k.exprs args) fun vs hvs => ?_
    split
    · exact m.call c f vs p.line hf hvs
    · exact .global (.interrupt _)
  | .member owner property p =>
    rw [Evaluator.expr, Local.expr]
    exact (part List.mem_cons_self).bind (k.expr owner) fun v _ =>
      .readPlace (p := .member v property) trivial p.line
  | .index owner i p =>
    rw [Evaluator.expr, Local.expr]
    refine (part List.mem_cons_self).bind (k.expr owner) fun v _ => ?_
    exact (part (List.mem_cons_of_mem _ List.mem_cons_self)).bind (k.expr i) fun w _ =>
      .readPlace (p := .index v w) trivial p.line
  | .array items p =>
    rw [Evaluator.expr, Local.expr]
    exact (m.exprs c items fun d hd => h.part hd).bind (k.exprs items) fun vs _ =>
      .global (.newArray _)
  | .object ps p =>
    rw [Evaluator.expr, Local.expr]
    have hp : ∀ q ∈ ps, c.Sees q.2 := fun q hq => h.part (List.mem_map_of_mem hq)
    exact (m.properties c ps .empty hp).bind (k.properties ps .empty (by simp [Fields.empty]))
      fun fields _ => .global (.newObject _)

theorem call_succ (hl : LocalNames program) (f : Value) (args : List Value) (line : Nat)
    (hf : f.DeclaredIn program) (ha : ∀ v ∈ args, v.DeclaredIn program) :
    c.Mirrors outer (Value.DeclaredIn program) (Evaluator.call (.plain host) (n + 1) f args line)
      (Local.call host (n + 1) f args line) := by
  match f with
  | .function f =>
    rw [Evaluator.call, Local.call]
    obtain ⟨t, ht, hd⟩ := hf f rfl
    have hp : ∀ p ∈ f.decl.params, IsParameter program p := fun p hp => ⟨t, ht, f.decl, hd, hp⟩
    have hb : Value.Admits (Value.DeclaredIn program) f.unit f.decl.body :=
      (upholds_declaredIn program host).declared f hf
    exact .callFunction (Value.onlyFunctions_declaredIn program) (hl.distinct t ht f.decl hd) hp ha
      line (fun bindings => m.block _ f.unit f.decl.body hb fun u hu name hn =>
        hl.body t ht f.decl hd u hu name hn) c
  | .native (.builtin b) =>
    rw [Evaluator.call, Local.call]
    exact .global (.attributed (.builtin host b args))
  | .native (.custom slot name suspends) =>
    simp only [Evaluator.call, Local.call, Embedding.plain, List.getElem?_nil]
    exact .global (.interrupt _)
  | .method receiver method =>
    rw [Evaluator.call, Local.call]
    exact .global (.callMethod method receiver args line)
  | .number _ | .text _ | .bool _ | .null | .undefined | .array _ | .object _ =>
    simp only [Evaluator.call, Local.call]
    exact .global (.interrupt _)

end Simulated

theorem simulated (hl : LocalNames program) (host : Host σ) (outer : String → Option Value)
    (n : Nat) : Simulated program host outer n := by
  -- over all scopes at once: a call goes from the scope it is made in to one of its own
  induction n with
  | zero => exact simulated_zero
  | succ n m =>
    exact {
      block := fun _ => m.block_succ
      stmt := fun _ => m.stmt_succ
      branches := fun _ => m.branches_succ
      whileLoop := fun _ => m.whileLoop_succ
      forLoop := fun _ => m.forLoop_succ
      expr := fun _ => m.expr_succ
      exprs := fun _ => m.exprs_succ
      properties := fun _ => m.properties_succ
      interpolated := fun _ => m.interpolated_succ
      place := fun _ => m.place_succ
      call := fun _ => m.call_succ hl }

theorem Program.run_runFramed {p : Program} (hl : LocalNames p.statements) (host : Host σ)
    (fuel : Nat) {s : State σ} (hs : s.Holds (Value.DeclaredIn p.statements) fun _ => True) :
    (p.run (.plain host) fuel s).1 = (p.runFramed host fuel s).1 ∧
    { (p.run (.plain host) fuel s).2 with bindings := (p.runFramed host fuel s).2.bindings } =
      (p.runFramed host fuel s).2 ∧
    ∀ name : String, (p.run (.plain host) fuel s).2.bindings[name]? =
      (p.runFramed host fuel s).2.bindings[name]? := by
  -- outside of calls no parameter is visible, and each stays bound to what it was
  let top : Scope (IsParameter p.statements) :=
    ⟨fun _ => False, fun name => s.bindings[name]?, fun _ h => h.elim⟩
  have ha : Value.Admits (Value.DeclaredIn p.statements) p.unit p.statements := by
    intro t ht d hd f hf
    cases hf
    exact ⟨t, ht, hd⟩
  have start : top.Mirror (fun name => s.bindings[name]?) { s with depth := 0 }
      ⟨∅, { s with depth := 0 }⟩ :=
    ⟨rfl, by simp [top], by simp, fun _ _ => rfl, fun _ _ _ => rfl, fun _ _ => rfl⟩
  have h := (simulated hl host (fun name => s.bindings[name]?) fuel).block top p.unit p.statements
    ha (fun t ht name hm hb => hl.top t ht name hm hb) { s with depth := 0 } _
    ⟨hs.bindings, hs.heap, trivial⟩ start
  refine ⟨congrArg Ending.of h.1.symm, h.2.rest, fun name => ?_⟩
  by_cases hb : IsParameter p.statements name
  · exact (h.2.pending name hb id).trans (h.2.outer name hb).symm
  · exact h.2.global name hb

theorem run_eq_runFramed (host : Host σ) (settings : Settings) (world : σ) (p : Program)
    (fuel : Nat) (h : LocalNames p.statements) :
    let s := State.initial (.plain host.traced) settings (world, [])
    let flat := p.run (.plain host.traced) fuel s
    let framed := p.runFramed host.traced fuel s
    flat.1 = framed.1 ∧ flat.2.world = framed.2.world ∧ flat.2.heap = framed.2.heap ∧
      ∀ name : String, flat.2.bindings[name]? = framed.2.bindings[name]? := by
  intro s flat framed
  have hs : s.Holds (Value.DeclaredIn p.statements) fun _ => True :=
    State.initial_holds (Value.onlyFunctions_declaredIn _) host.traced settings trivial
      fun _ _ _ b _ f hf => by cases hf
  obtain ⟨ending, rest, bindings⟩ := Program.run_runFramed h host.traced fuel hs
  have world_eq := congrArg State.world rest
  have heap_eq := congrArg State.heap rest
  exact ⟨ending, world_eq, heap_eq, bindings⟩

def descent : Program :=
  let a : Expr := .variable "a" .start
  let f : Expr := .variable "f" .start
  ⟨0, [.function "f" ["a"] [
      .branch a [.expr (.assign (.variable "a") (.call f [.literal .null .start] .start) .start)] []
        none .start,
      .return_ (some a) .start] .start,
    .expr (.assign (.variable "x") (.call f [.literal (.bool true) .start] .start) .start)]⟩

theorem descent_runs_with_frames :
    LocalNames descent.statements ∧
    let s := State.initial (.plain (Host.silent Unit).traced) .standard ((), [])
    let flat := descent.run (.plain (Host.silent Unit).traced) 40 s
    let framed := descent.runFramed (Host.silent Unit).traced 40 s
    flat.1 = framed.1 ∧ flat.2.world = framed.2.world ∧ flat.2.heap = framed.2.heap ∧
      ∀ name : String, flat.2.bindings[name]? = framed.2.bindings[name]? := by
  have declared : ∀ t ∈ descent.statements, ∀ d, t.Declares d → d.params = ["a"] := by
    intro t ht d hd
    simp only [descent, List.mem_cons, List.not_mem_nil, or_false] at ht
    rcases ht with rfl | rfl
    · rw [Stmt.declares_iff] at hd
      rcases hd with he | ⟨u, hu, hd⟩
      · injection he with _ hp
        exact hp.symm
      · simp only [Stmt.within, List.mem_cons, List.not_mem_nil, or_false] at hu
        rcases hu with rfl | rfl
        · simp [Stmt.declares_iff (.branch _ _ _ _ _), Stmt.declares_iff (.expr _), Stmt.within,
            Stmt.inner, FunctionDecl.stmt] at hd
        · simp [Stmt.declares_iff (.return_ _ _), Stmt.within, Stmt.inner, FunctionDecl.stmt] at hd
    · simp [Stmt.declares_iff (.expr _), Stmt.within, Stmt.inner, FunctionDecl.stmt] at hd
  have parameter (name : String) (h : IsParameter descent.statements name) : name = "a" := by
    obtain ⟨t, ht, d, hd, hn⟩ := h
    rw [declared t ht d hd] at hn
    exact List.mem_singleton.1 hn
  have hl : LocalNames descent.statements := by
    refine ⟨fun t ht d hd => ?_, fun t ht name hm hp => ?_, fun t ht d hd u _ name _ hp => ?_⟩
    · rw [declared t ht d hd]
      decide
    · rw [parameter name hp] at hm
      simp only [descent, List.mem_cons, List.not_mem_nil, or_false] at ht
      rcases ht with rfl | rfl
      · simp [Stmt.mentions_iff (.function _ _ _ _), Stmt.names, Stmt.exprs, Stmt.inner] at hm
      · simp [Stmt.mentions_iff (.expr _), Stmt.names, Stmt.exprs, Stmt.inner, Expr.mentions_iff,
          Expr.names, Expr.parts, Target.names, Target.parts] at hm
    · rw [declared t ht d hd, parameter name hp]
      exact List.mem_singleton_self _
  exact ⟨hl, run_eq_runFramed (.silent Unit) .standard () descent 40 hl⟩

end CanvasScript
