import CanvasScript.Proofs.Grammar.Statements
import CanvasScript.Proofs.Declarations

namespace CanvasScript

inductive Expr.WellFormed : Expr → Prop
  | intro {e : Expr} : (∀ d ∈ e.parts, WellFormed d) →
      (∀ ps p, e = .object ps p → (ps.map (·.1)).Nodup) → WellFormed e

def Stmt.leavesLoop : Stmt → Bool
  | .break_ _ => true
  | .continue_ _ => true
  | _ => false

inductive Stmt.WellFormed : Bool → Stmt → Prop
  | intro {inLoop : Bool} {s : Stmt} : (∀ e ∈ s.exprs, e.WellFormed) →
      (∀ t ∈ s.within, WellFormed (inLoop || s.isLoop) t) → (s.leavesLoop = true → inLoop = true) →
      WellFormed inLoop s

theorem Fields.put_of_not_mem {α : Type} {key : String} {es : List (String × α)}
    (h : key ∉ es.map (·.1)) (value : α) : put key value es = es ++ [(key, value)] := by
  induction es with
  | nil => rfl
  | cons e es ih =>
    obtain ⟨k, v⟩ := e
    rw [List.map_cons, List.mem_cons, not_or] at h
    rw [put, if_neg (Ne.symm h.1), ih h.2]
    rfl

theorem Fields.ofList_entries {α : Type} {es : List (String × α)} (h : (es.map (·.1)).Nodup) :
    (ofList es).entries = es := by
  -- with distinct keys each entry goes to the end, so the order of the source is kept
  have fold (es : List (String × α)) (f : Fields α) (hn : ((f.entries ++ es).map (·.1)).Nodup) :
      (es.foldl (fun f e => Fields.set f e.1 e.2) f).entries = f.entries ++ es := by
    induction es generalizing f with
    | nil => simp
    | cons e es ih =>
      have hk : e.1 ∉ f.entries.map (·.1) := by
        rw [List.map_append, List.map_cons] at hn
        exact fun hm => (List.nodup_append.1 hn).2.2 _ hm _ List.mem_cons_self rfl
      have hs : (f.set e.1 e.2).entries = f.entries ++ [e] := put_of_not_mem hk e.2
      rw [List.foldl_cons, ih _ (by rw [hs]; simpa using hn), hs]
      simp
  exact fold es empty h

def Target.expr : Target → Expr
  | .variable name => .variable name .start
  | .member owner property => .member owner property .start
  | .index owner i => .index owner i .start

theorem Target.target?_expr (t : Target) : t.expr.target? = some t := by
  cases t <;> rfl

namespace Written

variable {lax : Bool}

theorem exists_of_grade {e : Expr} (h : ∀ g ≤ e.grade, ∃ ts, Written lax (.expr g e) ts)
    (g : Grade) : ∃ ts, Written lax (.expr g e) ts := by
  by_cases hg : g ≤ e.grade
  · exact h g hg
  -- the position needs a tighter grade, so parentheses may stand here
  · obtain ⟨ts, ht⟩ := h .assignment (Nat.zero_le _)
    exact ⟨_, .paren .start .start (.inr hg) ht⟩

theorem exists_items {es : List Expr} (h : ∀ e ∈ es, ∀ g, ∃ ts, Written lax (.expr g e) ts) :
    ∃ ts, Written lax (.items es) ts := by
  induction es with
  | nil => exact ⟨[], .noItems⟩
  | cons e es ih =>
    obtain ⟨he, hes⟩ := List.forall_mem_cons.1 h
    obtain ⟨ts, ht⟩ := he .assignment
    cases es with
    | nil => exact ⟨ts, .lastItem ht⟩
    | cons d es =>
      obtain ⟨us, hu⟩ := ih hes
      exact ⟨_, .item .start ht hu⟩

theorem exists_properties {ps : List (String × Expr)}
    (h : ∀ p ∈ ps, ∀ g, ∃ ts, Written lax (.expr g p.2) ts) :
    ∃ ts, Written lax (.properties ps) ts := by
  induction ps with
  | nil => exact ⟨[], .noProperties⟩
  | cons p ps ih =>
    obtain ⟨hp, hps⟩ := List.forall_mem_cons.1 h
    obtain ⟨ts, ht⟩ := hp .assignment
    cases ps with
    | nil => exact ⟨_, .lastProperty .start .start (.inl rfl) ht⟩
    | cons q ps =>
      obtain ⟨us, hu⟩ := ih hps
      exact ⟨_, .property .start .start .start (.inl rfl) ht hu⟩

theorem exists_names (xs : List String) : ∃ ts, Written lax (.names xs) ts := by
  induction xs with
  | nil => exact ⟨[], .noNames⟩
  | cons x xs ih =>
    cases xs with
    | nil => exact ⟨_, .lastName x .start⟩
    | cons y xs =>
      obtain ⟨ts, ht⟩ := ih
      exact ⟨_, .nameList .start .start ht⟩

theorem exists_target {t : Target} (h : ∀ d ∈ t.parts, ∀ g, ∃ ts, Written lax (.expr g d) ts) :
    ∃ ts, Written lax (.expr (.binary .or) t.expr) ts := by
  match t with
  | .variable x => exact ⟨_, .name x .start .start⟩
  | .member owner key =>
    obtain ⟨ts, ht⟩ := h owner List.mem_cons_self .suffixed
    exact ⟨_, .member key .start .start .start ht⟩
  | .index owner i =>
    obtain ⟨ts, ht⟩ := h owner List.mem_cons_self .suffixed
    obtain ⟨us, hu⟩ := h i (List.mem_cons_of_mem _ List.mem_cons_self) .assignment
    exact ⟨_, .index .start .start .start ht hu⟩

theorem exists_own {e : Expr} (h : ∀ d ∈ e.parts, ∀ g, ∃ ts, Written lax (.expr g d) ts)
    (hk : ∀ ps p, e = .object ps p → (ps.map (·.1)).Nodup) :
    ∀ g ≤ e.grade, ∃ ts, Written lax (.expr g e) ts := by
  intro g hg
  match e with
  | .literal l p => exact ⟨_, .literal l p .start⟩
  | .variable x p => exact ⟨_, .name x p .start⟩
  | .assign target value p =>
    obtain ⟨ls, hl⟩ := exists_target fun d hd => h d (List.mem_append_left _ hd)
    obtain ⟨vs, hv⟩ := h value (List.mem_append_right _ (List.mem_singleton_self value)) .assignment
    exact ⟨_, .assign p .start hg target.target?_expr hl hv⟩
  | .compound op target value p =>
    obtain ⟨ls, hl⟩ := exists_target fun d hd => h d (List.mem_append_left _ hd)
    obtain ⟨vs, hv⟩ := h value (List.mem_append_right _ (List.mem_singleton_self value)) .assignment
    exact ⟨_, .compound op p .start hg target.target?_expr hl hv⟩
  | .update op x p =>
    exact ⟨_, .update op p .start hg (.name x .start .start)⟩
  | .unary op operand p =>
    obtain ⟨ts, ht⟩ := h operand List.mem_cons_self .unary
    obtain ⟨l, hl⟩ := op.exists_spelling
    exact ⟨_, .unary p .start hg hl ht⟩
  | .binary op left right p =>
    obtain ⟨ls, hleft⟩ := h left List.mem_cons_self (.binary op.level)
    obtain ⟨rs, hright⟩ := h right (List.mem_cons_of_mem _ List.mem_cons_self) op.level.operandGrade
    obtain ⟨l, hl⟩ := op.exists_spelling
    exact ⟨_, .binary p .start hg hl hleft hright⟩
  | .call callee args p =>
    obtain ⟨cs, hc⟩ := h callee List.mem_cons_self .suffixed
    obtain ⟨ts, ha⟩ := exists_items fun d hd => h d (List.mem_cons_of_mem _ hd)
    exact ⟨_, .call p .start .start hc ha⟩
  | .member owner key p =>
    obtain ⟨ts, ht⟩ := h owner List.mem_cons_self .suffixed
    exact ⟨_, .member key p .start .start ht⟩
  | .index owner i p =>
    obtain ⟨ts, ht⟩ := h owner List.mem_cons_self .suffixed
    obtain ⟨us, hu⟩ := h i (List.mem_cons_of_mem _ List.mem_cons_self) .assignment
    exact ⟨_, .index p .start .start ht hu⟩
  | .array items p =>
    obtain ⟨ts, ht⟩ := exists_items h
    exact ⟨_, .array p .start .start ht⟩
  | .object ps p =>
    obtain ⟨ts, ht⟩ := exists_properties fun q hq => h q.2 (List.mem_map_of_mem hq)
    have hw := Written.object (g := g) p .start .start ht
    rw [Fields.ofList_entries (hk ps p rfl)] at hw
    exact ⟨_, hw⟩

theorem exists_expr {e : Expr} (h : e.WellFormed) (g : Grade) :
    ∃ ts, Written lax (.expr g e) ts := by
  induction h generalizing g with
  | intro _ hk ih => exact exists_of_grade (exists_own ih hk) g

variable {inLoop : Bool}

theorem exists_block {ss : List Stmt} (h : ∀ s ∈ ss, ∃ ts, Written lax (.stmt inLoop s) ts) :
    ∃ ts, Written lax (.block inLoop ss) ts := by
  induction ss with
  | nil => exact ⟨[], .noStmts⟩
  | cons s ss ih =>
    obtain ⟨hs, hss⟩ := List.forall_mem_cons.1 h
    obtain ⟨ts, ht⟩ := hs
    obtain ⟨us, hu⟩ := ih hss
    exact ⟨_, .stmts ht hu⟩

theorem exists_branches {bs : List (Expr × List Stmt)} (hc : ∀ b ∈ bs, b.1.WellFormed)
    (hb : ∀ b ∈ bs, ∀ s ∈ b.2, ∃ ts, Written lax (.stmt inLoop s) ts) :
    ∃ ts, Written lax (.branches inLoop bs) ts := by
  induction bs with
  | nil => exact ⟨[], .noBranches⟩
  | cons b bs ih =>
    obtain ⟨hc, hcs⟩ := List.forall_mem_cons.1 hc
    obtain ⟨hb, hbs⟩ := List.forall_mem_cons.1 hb
    obtain ⟨cs, hc⟩ := exists_expr hc .assignment
    obtain ⟨ts, ht⟩ := exists_block hb
    obtain ⟨us, hu⟩ := ih hcs hbs
    exact ⟨_, .branches .start .start .start hc (.written .start) ht hu⟩

theorem exists_otherwise {o : Option (List Stmt)}
    (h : ∀ s ∈ o.getD [], ∃ ts, Written lax (.stmt inLoop s) ts) :
    ∃ ts, Written lax (.otherwise inLoop o) ts := by
  cases o with
  | none => exact ⟨[], .noOtherwise⟩
  | some body =>
    obtain ⟨ts, ht⟩ := exists_block h
    exact ⟨_, .otherwise .start (.written .start) ht⟩

theorem exists_stmt {s : Stmt} (h : s.WellFormed inLoop) :
    ∃ ts, Written lax (.stmt inLoop s) ts := by
  induction h with
  | @intro inLoop s he _ hl ih =>
    have semi : Semicolon lax [Sign.semicolon.token .start] := .written .start
    have header : Semicolon true [Sign.semicolon.token .start] := .written .start
    match s with
    | .function f params body p =>
      obtain ⟨ps, hp⟩ := exists_names params
      simp only [Stmt.isLoop, Bool.or_false] at ih
      obtain ⟨bs, hb⟩ := exists_block ih
      exact ⟨_, .function p .start .start .start .start .start hp header hb semi⟩
    | .return_ none p => exact ⟨_, .returnNothing p .start semi⟩
    | .return_ (some e) p =>
      obtain ⟨ts, ht⟩ := exists_expr (he e (List.mem_singleton_self e)) .assignment
      exact ⟨_, .return_ p .start ht semi⟩
    | .branch c body elseifs other p =>
      simp only [Stmt.isLoop, Bool.or_false] at ih
      simp only [Stmt.within, Stmt.inner, List.mem_append, List.mem_flatMap] at ih
      obtain ⟨hc, hcs⟩ := List.forall_mem_cons.1 he
      obtain ⟨cs, hc⟩ := exists_expr hc .assignment
      obtain ⟨bs, hb⟩ := exists_block fun s hs => ih s (.inl (.inl hs))
      obtain ⟨ls, hls⟩ := exists_branches (fun b hb => hcs b.1 (List.mem_map_of_mem hb))
        fun b hb s hs => ih s (.inl (.inr ⟨b, hb, hs⟩))
      obtain ⟨os, ho⟩ := exists_otherwise fun s hs => ih s (.inr hs)
      exact ⟨_, .branch p .start .start .start .start hc header hb hls ho semi⟩
    | .while_ c body p =>
      simp only [Stmt.isLoop, Bool.or_true] at ih
      obtain ⟨cs, hc⟩ := exists_expr (he c (List.mem_singleton_self c)) .assignment
      obtain ⟨bs, hb⟩ := exists_block ih
      exact ⟨_, .while_ p .start .start .start .start hc header hb semi⟩
    | .for_ counter count body p =>
      simp only [Stmt.isLoop, Bool.or_true] at ih
      obtain ⟨cs, hc⟩ := exists_expr (he count (List.mem_singleton_self count)) .assignment
      obtain ⟨bs, hb⟩ := exists_block ih
      exact ⟨_, .for_ p .start .start .start .start .start .start hc header hb semi⟩
    | .break_ p =>
      cases hl rfl
      exact ⟨_, .break_ p .start semi⟩
    | .continue_ p =>
      cases hl rfl
      exact ⟨_, .continue_ p .start semi⟩
    | .expr e =>
      obtain ⟨ts, ht⟩ := exists_expr (he e (List.mem_singleton_self e)) .assignment
      exact ⟨_, .expr ht semi⟩

end Written

theorem parse_written (body : List Stmt) (h : ∀ s ∈ body, s.WellFormed false) :
    (∃ ts, Written false (.block false body) ts) ∧
    ∀ (ts : List Token) (finish : Position), Written false (.block false body) ts →
      ∃ ds, TokenStream.program ⟨ts, finish⟩ = .ok ds ∧
        Stmt.unplacedList ds = Stmt.unplacedList body :=
  ⟨Written.exists_block fun s hs => Written.exists_stmt (h s hs),
    fun _ finish hw => hw.program finish⟩

def sample : List Stmt :=
  let a : Expr := .variable "a" .start
  let b : Expr := .variable "b" .start
  [.while_ (.unary .not (.binary .or a b .start) .start)
      [.function "f" ["a"] [.break_ .start] .start] .start,
    .expr (.assign (.variable "x") (.object [("k", a), ("l", .array [b] .start)] .start) .start)]

theorem sample_parses :
    (∀ s ∈ sample, s.WellFormed false) ∧ (∃ ts, Written false (.block false sample) ts) ∧
    ∀ (ts : List Token) (finish : Position), Written false (.block false sample) ts →
      ∃ ds, TokenStream.program ⟨ts, finish⟩ = .ok ds ∧
        Stmt.unplacedList ds = Stmt.unplacedList sample := by
  have name (x : String) : (Expr.variable x .start).WellFormed :=
    .intro (by simp [Expr.parts]) (by simp)
  have either : (Expr.binary .or (.variable "a" .start) (.variable "b" .start) .start).WellFormed :=
    .intro (by simp [Expr.parts, name]) (by simp)
  have list : (Expr.array [.variable "b" .start] .start).WellFormed :=
    .intro (by simp [Expr.parts, name]) (by simp)
  have record : (Expr.object [("k", .variable "a" .start),
      ("l", .array [.variable "b" .start] .start)] .start).WellFormed := by
    refine .intro (by simp [Expr.parts, name, list]) fun ps p h => ?_
    cases h
    decide
  have leave : (Stmt.break_ .start).WellFormed true :=
    .intro (by simp [Stmt.exprs]) (by simp [Stmt.within, Stmt.inner]) fun _ => rfl
  have within : (Stmt.function "f" ["a"] [.break_ .start] .start).WellFormed true :=
    .intro (by simp [Stmt.exprs]) (by simp [Stmt.within, Stmt.isLoop, leave]) (by simp)
  have negated : (Expr.unary .not
      (.binary .or (.variable "a" .start) (.variable "b" .start) .start) .start).WellFormed :=
    .intro (by simp [Expr.parts, either]) (by simp)
  have assigned : (Expr.assign (.variable "x") (.object [("k", .variable "a" .start),
      ("l", .array [.variable "b" .start] .start)] .start) .start).WellFormed :=
    .intro (by simp [Expr.parts, Target.parts, record]) (by simp)
  have h : ∀ s ∈ sample, s.WellFormed false := by
    intro s hs
    simp only [sample, List.mem_cons, List.not_mem_nil, or_false] at hs
    rcases hs with rfl | rfl
    · exact .intro (by simp [Stmt.exprs, negated])
        (by simp [Stmt.within, Stmt.inner, Stmt.isLoop, within])
        (by simp [Stmt.leavesLoop])
    · exact .intro (by simp [Stmt.exprs, assigned]) (by simp [Stmt.within, Stmt.inner])
        (by simp [Stmt.leavesLoop])
  exact ⟨h, parse_written sample h⟩

end CanvasScript
