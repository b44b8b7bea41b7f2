import CanvasScript.Proofs.Declarations
import CanvasScript.Proofs.Termination.Markers

namespace CanvasScript

def lineCount : List Char → Nat
  | [] => 0
  | c :: rest => if c = '\n' then lineCount rest + 1 else max 1 (lineCount rest)

example : lineCount "a = 1;\n\nb = 2;\n".toList = 3 := by decide

theorem lineCount_pos (c : Char) (rest : List Char) : 0 < lineCount (c :: rest) := by
  rw [lineCount]
  split <;> omega

theorem lineCount_le_one {cs : List Char} (h : '\n' ∉ cs) : lineCount cs ≤ 1 := by
  induction cs with
  | nil => exact Nat.zero_le 1
  | cons c rest ih =>
    rw [List.mem_cons, not_or] at h
    have less := ih h.2
    rw [lineCount, if_neg (Ne.symm h.1)]
    omega

theorem Position.line_next (p : Position) (c : Char) (rest : List Char) :
    p.line ≤ (p.next c).line ∧
      (p.next c).line + lineCount rest ≤ p.line + lineCount (c :: rest) := by
  rw [Position.next, lineCount]
  split
  · dsimp only
    omega
  · dsimp only
    omega

theorem scanFrom_line {skip : Nat} {p : Position} {cs : List Char} :
    ∀ t ∈ (scanFrom skip p cs).tokens,
      p.line ≤ t.position.line ∧ t.position.line < p.line + lineCount cs := by
  induction cs generalizing skip p with
  | nil => exact List.forall_mem_nil _
  | cons c rest ih =>
    have pos := lineCount_pos c rest
    have later : ∀ n, ∀ t ∈ (scanFrom n (p.next c) rest).tokens,
        p.line ≤ t.position.line ∧ t.position.line < p.line + lineCount (c :: rest) := by
      intro n t ht
      have next := p.line_next c rest
      have line := ih t ht
      omega
    cases skip with
    | succ skip => exact later skip
    | zero =>
      simp only [scanFrom]
      split
      · exact later 0
      · split
        · exact later _
        · refine List.forall_mem_cons.2 ⟨?_, later _⟩
          dsimp only
          omega
        · exact later _

namespace TokenStream

variable {source : String} {p : Position} {ts : TokenStream}

theorem tokens_ofSource (h : ofSource source p = .ok ts) :
    ts.tokens = (scanFrom 0 p source.toList).tokens := by
  unfold ofSource at h
  dsimp only at h
  split at h <;> cases h
  rfl

theorem line_of_mem {t : Token} (h : ofSource source .start = .ok ts) (ht : t ∈ ts.tokens) :
    0 < t.position.line ∧ t.position.line ≤ lineCount source.toList := by
  rw [tokens_ofSource h] at ht
  have line := scanFrom_line t ht
  rw [Position.start] at line
  dsimp only at line
  omega

theorem line_eq_of_mem {t : Token} (h : ofSource source p = .ok ts) (hn : '\n' ∉ source.toList)
    (ht : t ∈ ts.tokens) : t.position.line = p.line := by
  rw [tokens_ofSource h] at ht
  have line := scanFrom_line t ht
  have one := lineCount_le_one hn
  omega

end TokenStream

/-- Lines to stand on, and places for texts. A text that can hold no marker may stand at any
place. -/
structure Region where
  lines : Nat → Prop
  texts : String → Position → Prop
  quiet : ∀ s p, '}' ∉ s.toList → texts s p

def Region.onLine (line : Nat) : Region := ⟨(· = line), fun _ _ => True, fun _ _ _ => trivial⟩

variable {R : Region}

def Token.In (R : Region) (t : Token) : Prop :=
  R.lines t.position.line ∧ ∀ s, t.lexeme = .text s → R.texts s t.position

inductive Expr.In (R : Region) : Expr → Prop
  | intro {e : Expr} : R.lines e.position.line →
      (∀ s p, e = .literal (.text s) p → R.texts s p) → (∀ d ∈ e.parts, In R d) → In R e

theorem Expr.In.text {s : String} {p : Position} (h : (literal (.text s) p).In R) :
    R.texts s p := by
  cases h with
  | intro _ text _ => exact text s p rfl

inductive Stmt.In (R : Region) : Stmt → Prop
  | intro {s : Stmt} : (∀ e ∈ s.exprs, e.In R) → (∀ t ∈ s.within, In R t) → In R s

def Target.In (R : Region) (target : Target) : Prop := ∀ e ∈ target.parts, e.In R

theorem Expr.In.line {e : Expr} (h : e.In R) : R.lines e.position.line := by
  cases h with
  | intro line _ _ => exact line

theorem Expr.In.parts {e : Expr} (h : e.In R) : ∀ d ∈ e.parts, d.In R := by
  cases h with
  | intro _ _ parts => exact parts

theorem Stmt.In.exprs {s : Stmt} (h : s.In R) : ∀ e ∈ s.exprs, e.In R := by
  cases h with
  | intro exprs _ => exact exprs

theorem Stmt.In.within {s : Stmt} (h : s.In R) : ∀ t ∈ s.within, t.In R := by
  cases h with
  | intro _ within => exact within

theorem Expr.In.target {e : Expr} {target : Target} (h : e.In R) (ht : e.target? = some target) :
    target.In R := by
  unfold Target.In
  rw [Expr.parts_of_target? ht]
  exact h.parts

def Ahead.In (R : Region) (ts : Ahead) : Prop := ∀ t ∈ ts.tokens, t.In R

namespace Ahead

variable {ts : Ahead} (h : ts.In R)
include h

theorem In.rest : ts.rest.In R := fun t ht => h t (List.mem_of_mem_tail ht)

theorem In.head {l : Lexeme} (hl : ts.head? = some l) : Token.In R ⟨l, ts.position⟩ := by
  obtain ⟨tokens, finish⟩ := ts
  cases tokens with
  | nil => cases hl
  | cons t tokens =>
    cases hl
    exact h t List.mem_cons_self

theorem In.skipSemicolon : ts.skipSemicolon.In R := by
  unfold Ahead.skipSemicolon
  split
  · exact h.rest
  · exact h

end Ahead

namespace Parse

def Reads {α : Type} (R : Region) (P : α → Prop) (x : Except Diagnostic (α × Ahead)) : Prop :=
  ∀ a ts, x = .ok (a, ts) → P a ∧ ts.In R

def Passes (R : Region) (x : Except Diagnostic Ahead) : Prop := ∀ ts, x = .ok ts → ts.In R

section Rules

variable {α β : Type} {P : α → Prop} {Q : β → Prop} {ts : Ahead}

theorem Reads.ok {a : α} (ha : P a) (ht : ts.In R) : Reads R P (.ok (a, ts)) := by
  rintro _ _ ⟨⟩
  exact ⟨ha, ht⟩

theorem Reads.error (d : Diagnostic) : Reads R P (.error d) := nofun

theorem Reads.fail (what : Expectation) : Reads R P (ts.fail what) := nofun

theorem Reads.bind {x : Except Diagnostic (α × Ahead)}
    {f : α × Ahead → Except Diagnostic (β × Ahead)} (hx : Reads R P x)
    (hf : ∀ a ts, P a → ts.In R → Reads R Q (f (a, ts))) : Reads R Q (x >>= f) := by
  intro b us h
  obtain ⟨⟨a, ts⟩, ha, h⟩ := ok_of_bind h
  obtain ⟨hp, ht⟩ := hx a ts ha
  exact hf a ts hp ht b us h

theorem Passes.bind {x : Except Diagnostic Ahead} {f : Ahead → Except Diagnostic (β × Ahead)}
    (hx : Passes R x) (hf : ∀ ts, ts.In R → Reads R Q (f ts)) : Reads R Q (x >>= f) := by
  intro b us h
  obtain ⟨ts, ha, h⟩ := ok_of_bind h
  exact hf ts (hx ts ha) b us h

theorem passes_expectSign (h : ts.In R) (s : Sign) : Passes R (ts.expectSign s) := by
  intro us hu
  unfold Ahead.expectSign at hu
  split at hu
  · cases hu
    exact h.rest
  · cases hu

theorem passes_expectKeyword (h : ts.In R) (k : Keyword) : Passes R (ts.expectKeyword k) := by
  intro us hu
  unfold Ahead.expectKeyword at hu
  split at hu
  · cases hu
    exact h.rest
  · cases hu

theorem reads_expectName (h : ts.In R) : Reads R (fun _ => True) ts.expectName := by
  unfold Ahead.expectName
  split
  · exact .ok trivial h.rest
  · exact .fail _

end Rules

structure ReadsExpr (R : Region) (n : Nat) : Prop where
  expr : ∀ {ts}, ts.In R → Reads R (Expr.In R) (expr n ts)
  chain : ∀ {level ts}, ts.In R → Reads R (Expr.In R) (chain n level ts)
  chainRest : ∀ {level left ts}, left.In R → ts.In R →
    Reads R (Expr.In R) (chainRest n level left ts)
  operand : ∀ {level ts}, ts.In R → Reads R (Expr.In R) (operand n level ts)
  unary : ∀ {ts}, ts.In R → Reads R (Expr.In R) (unary n ts)
  postfixed : ∀ {ts}, ts.In R → Reads R (Expr.In R) (postfixed n ts)
  accesses : ∀ {e ts}, e.In R → ts.In R → Reads R (Expr.In R) (accesses n e ts)
  primary : ∀ {ts}, ts.In R → Reads R (Expr.In R) (primary n ts)
  items : ∀ {closing ts}, ts.In R → Reads R (∀ e ∈ ·, Expr.In R e) (items n closing ts)
  itemsRest : ∀ {closing ts}, ts.In R → Reads R (∀ e ∈ ·, Expr.In R e) (itemsRest n closing ts)
  properties : ∀ {ts}, ts.In R → Reads R (∀ p ∈ ·, Expr.In R p.2) (properties n ts)
  propertiesRest : ∀ {ts}, ts.In R → Reads R (∀ p ∈ ·, Expr.In R p.2) (propertiesRest n ts)

theorem readsExpr_zero : ReadsExpr R 0 where
  expr _ := .fail _
  chain _ := .fail _
  chainRest _ _ := .fail _
  operand _ := .fail _
  unary _ := .fail _
  postfixed _ := .fail _
  accesses _ _ := .fail _
  primary _ := .fail _
  items _ := .fail _
  itemsRest _ := .fail _
  properties _ := .fail _
  propertiesRest _ := .fail _

namespace ReadsExpr

variable {n : Nat} {ts : Ahead} (k : ReadsExpr R n)
include k

theorem expr_succ (h : ts.In R) : Reads R (Expr.In R) (Parse.expr (n + 1) ts) := by
  rw [Parse.expr]
  refine (k.chain h).bind fun left us hl hu => ?_
  dsimp only
  split
  · exact .ok hl hu
  · refine (k.expr hu.rest).bind fun value ws hv hw => ?_
    dsimp only
    split
    · exact .error _
    · rename_i target ht
      have parts : ∀ d ∈ target.parts ++ [value], d.In R :=
        List.forall_mem_append.2 ⟨hl.target ht, List.forall_mem_singleton.2 hv⟩
      split
      · exact .ok (.intro hl.line (by simp) parts) hw
      · exact .ok (.intro hl.line (by simp) parts) hw

theorem chain_succ {level : Level} (h : ts.In R) :
    Reads R (Expr.In R) (Parse.chain (n + 1) level ts) := by
  rw [Parse.chain]
  exact (k.operand h).bind fun left us hl hu => k.chainRest hl hu

theorem chainRest_succ {level : Level} {left : Expr} (hl : left.In R) (h : ts.In R) :
    Reads R (Expr.In R) (Parse.chainRest (n + 1) level left ts) := by
  rw [Parse.chainRest]
  split
  · exact .ok hl h
  · refine (k.operand h.rest).bind fun right us hr hu => k.chainRest ?_ hu
    exact .intro hl.line (by simp) (List.forall_mem_cons.2 ⟨hl, List.forall_mem_singleton.2 hr⟩)

theorem operand_succ {level : Level} (h : ts.In R) :
    Reads R (Expr.In R) (Parse.operand (n + 1) level ts) := by
  rw [Parse.operand]
  split
  · exact k.chain h
  · exact k.unary h

theorem unary_succ (h : ts.In R) : Reads R (Expr.In R) (Parse.unary (n + 1) ts) := by
  rw [Parse.unary]
  split
  · exact k.postfixed h
  · rename_i op ho
    obtain ⟨l, hl, -⟩ := Option.bind_eq_some_iff.1 ho
    refine (k.unary h.rest).bind fun inner us hi hu => ?_
    exact .ok (.intro (h.head hl).1 (by simp) (List.forall_mem_singleton.2 hi)) hu

theorem postfixed_succ (h : ts.In R) : Reads R (Expr.In R) (Parse.postfixed (n + 1) ts) := by
  rw [Parse.postfixed]
  refine (k.primary h).bind fun first us hf hu => (k.accesses hf hu).bind fun e ws he hw => ?_
  dsimp only
  split
  · exact .ok he hw
  · split
    · exact .ok (.intro he.line (by simp) (by simp [Expr.parts])) hw.rest
    · exact .error _

theorem accesses_succ {e : Expr} (he : e.In R) (h : ts.In R) :
    Reads R (Expr.In R) (Parse.accesses (n + 1) e ts) := by
  rw [Parse.accesses]
  split
  · refine (reads_expectName h.rest).bind fun property us _ hu => k.accesses ?_ hu
    exact .intro he.line (by simp) (List.forall_mem_singleton.2 he)
  · refine (k.expr h.rest).bind fun i us hi hu => (passes_expectSign hu _).bind fun ws hw =>
      k.accesses ?_ hw
    exact .intro he.line (by simp) (List.forall_mem_cons.2 ⟨he, List.forall_mem_singleton.2 hi⟩)
  · refine (k.items h.rest).bind fun args us ha hu => k.accesses ?_ hu
    exact .intro he.line (by simp) (List.forall_mem_cons.2 ⟨he, ha⟩)
  · exact .ok he h

theorem primary_succ (h : ts.In R) : Reads R (Expr.In R) (Parse.primary (n + 1) ts) := by
  rw [Parse.primary]
  split
  case h_1 hd => exact .ok (.intro (h.head hd).1 (by simp) (by simp [Expr.parts])) h.rest
  case h_2 hd =>
    refine (reads_expectName h.rest).bind fun name us _ hu => ?_
    exact .ok (.intro (h.head hd).1 (by simp) (by simp [Expr.parts])) hu
  case h_3 hd =>
    refine (k.items h.rest).bind fun es us hes hu => ?_
    exact .ok (.intro (h.head hd).1 (by simp) hes) hu
  case h_4 hd =>
    refine (k.properties h.rest).bind fun ps us hps hu => ?_
    refine .ok (.intro (h.head hd).1 (by simp) fun d hm => ?_) hu
    obtain ⟨p, hp, rfl⟩ := List.mem_map.1 hm
    exact hps p (Fields.mem_of_mem_ofList hp)
  case h_5 hd =>
    refine (k.expr h.rest).bind fun e us he hu => (passes_expectSign hu _).bind fun ws hw => ?_
    exact .ok he hw
  case h_6 =>
    split
    · rename_i l hl
      obtain ⟨lexeme, hd, hl⟩ := Option.bind_eq_some_iff.1 hl
      obtain ⟨line, text⟩ := h.head hd
      refine .ok (.intro line ?_ (by simp [Expr.parts])) h.rest
      rintro s p ⟨⟩
      exact text s (Lexeme.eq_lexeme_of_literal? hl)
    · exact .fail _

theorem items_succ {closing : Sign} (h : ts.In R) :
    Reads R (∀ e ∈ ·, Expr.In R e) (Parse.items (n + 1) closing ts) := by
  rw [Parse.items]
  split
  · exact .ok (List.forall_mem_nil _) h.rest
  · exact k.itemsRest h

theorem itemsRest_succ {closing : Sign} (h : ts.In R) :
    Reads R (∀ e ∈ ·, Expr.In R e) (Parse.itemsRest (n + 1) closing ts) := by
  rw [Parse.itemsRest]
  refine (k.expr h).bind fun e us he hu => ?_
  dsimp only
  split
  · refine (k.itemsRest hu.rest).bind fun es ws hes hw => ?_
    exact .ok (List.forall_mem_cons.2 ⟨he, hes⟩) hw
  · refine (passes_expectSign hu _).bind fun ws hw => ?_
    exact .ok (List.forall_mem_singleton.2 he) hw

theorem properties_succ (h : ts.In R) :
    Reads R (∀ p ∈ ·, Expr.In R p.2) (Parse.properties (n + 1) ts) := by
  rw [Parse.properties]
  split
  · exact .ok (List.forall_mem_nil _) h.rest
  · exact k.propertiesRest h

theorem propertiesRest_succ (h : ts.In R) :
    Reads R (∀ p ∈ ·, Expr.In R p.2) (Parse.propertiesRest (n + 1) ts) := by
  have valued (key : String) : Reads R (∀ p ∈ ·, Expr.In R p.2) (valued n key ts.rest) := by
    refine (passes_expectSign h.rest _).bind fun us hu => (k.expr hu).bind fun e ws he hw => ?_
    dsimp only
    split
    · refine (k.propertiesRest hw.rest).bind fun ps vs hps hv => ?_
      exact .ok (List.forall_mem_cons.2 ⟨he, hps⟩) hv
    · refine (passes_expectSign hw _).bind fun vs hv => ?_
      exact .ok (List.forall_mem_singleton.2 he) hv
  rw [Parse.propertiesRest]
  split
  · exact valued _
  · exact valued _
  · exact .fail _

end ReadsExpr

theorem readsExpr (R : Region) (n : Nat) : ReadsExpr R n := by
  induction n with
  | zero => exact readsExpr_zero
  | succ n k =>
    exact ⟨k.expr_succ, k.chain_succ, k.chainRest_succ, k.operand_succ, k.unary_succ,
      k.postfixed_succ, k.accesses_succ, k.primary_succ, k.items_succ, k.itemsRest_succ,
      k.properties_succ, k.propertiesRest_succ⟩

section Headers

variable {n : Nat} {ts : Ahead} (h : ts.In R)
include h

theorem reads_names : Reads R (fun _ => True) (names n ts) := by
  induction n generalizing ts with
  | zero => exact .fail _
  | succ n ih =>
    rw [names]
    refine (reads_expectName h).bind fun name us _ hu => ?_
    dsimp only
    split
    · exact (ih hu.rest).bind fun rest ws _ hw => .ok trivial hw
    · exact .ok trivial hu

theorem reads_params : Reads R (fun _ => True) (params ts) := by
  unfold params
  split
  · exact .ok trivial h
  · exact reads_names h

theorem reads_condition : Reads R (Expr.In R) (condition n ts) := by
  refine (passes_expectSign h _).bind fun us hu => ?_
  refine ((readsExpr R n).expr hu).bind fun e vs he hv => ?_
  exact (passes_expectSign hv _).bind fun ws hw => .ok he hw.skipSemicolon

theorem reads_returned : Reads R (∀ e ∈ ·, Expr.In R e) (returned n ts) := by
  unfold returned
  split
  · exact .ok nofun h
  · refine ((readsExpr R n).expr h).bind fun e us he hu => .ok ?_ hu
    rintro _ ⟨⟩
    exact he

theorem passes_close : Passes R (close ts) := by
  intro us hu
  obtain ⟨vs, hv, hu⟩ := ok_of_bind hu
  cases hu
  exact (passes_expectKeyword h _ vs hv).skipSemicolon

end Headers

structure ReadsStmt (R : Region) (n : Nat) : Prop where
  stmt : ∀ {inLoop ts}, ts.In R → Reads R (Stmt.In R) (stmt n inLoop ts)
  block : ∀ {inLoop closing ts}, ts.In R →
    Reads R (∀ s ∈ ·, Stmt.In R s) (block n inLoop closing ts)
  branches : ∀ {inLoop ts}, ts.In R →
    Reads R (∀ b ∈ ·, Expr.In R b.1 ∧ ∀ s ∈ b.2, Stmt.In R s) (branches n inLoop ts)
  otherwise : ∀ {inLoop ts}, ts.In R →
    Reads R (∀ s ∈ ·.getD [], Stmt.In R s) (otherwise n inLoop ts)

theorem readsStmt_zero : ReadsStmt R 0 where
  stmt _ := .fail _
  block _ := .fail _
  branches _ := .fail _
  otherwise _ := .fail _

namespace ReadsStmt

variable {n : Nat} {inLoop : Bool} {ts : Ahead} (k : ReadsStmt R n)
include k

theorem stmt_succ (h : ts.In R) : Reads R (Stmt.In R) (Parse.stmt (n + 1) inLoop ts) := by
  have none : ∀ s ∈ ([] : List Stmt), s.In R := List.forall_mem_nil _
  have e := readsExpr R n
  rw [Parse.stmt]
  split
  case h_1 =>
    refine (reads_condition h.rest).bind fun c us hc hu => (k.block hu).bind fun body vs hb hv => ?_
    refine (k.branches hv).bind fun bs ws hbs hw => (k.otherwise hw).bind fun o xs ho hx => ?_
    refine (passes_close hx).bind fun ys hy => .ok (.intro ?_ ?_) hy
    · refine List.forall_mem_cons.2 ⟨hc, fun d hd => ?_⟩
      obtain ⟨b, hb, rfl⟩ := List.mem_map.1 hd
      exact (hbs b hb).1
    · refine List.forall_mem_append.2 ⟨List.forall_mem_append.2 ⟨hb, fun s hs => ?_⟩, ho⟩
      obtain ⟨b, hb, hs⟩ := List.mem_flatMap.1 hs
      exact (hbs b hb).2 s hs
  case h_2 =>
    refine (reads_condition h.rest).bind fun c us hc hu => (k.block hu).bind fun body vs hb hv => ?_
    exact (passes_close hv).bind fun ws hw => .ok (.intro (List.forall_mem_singleton.2 hc) hb) hw
  case h_3 =>
    refine (passes_expectSign h.rest _).bind fun us hu => ?_
    refine (reads_expectName hu).bind fun x vs _ hv => (passes_expectSign hv _).bind fun ws hw => ?_
    refine (e.expr hw).bind fun count xs hc hx => ?_
    refine (passes_expectSign hx _).bind fun ys hy => ?_
    refine (k.block hy.skipSemicolon).bind fun body zs hb hz => ?_
    exact (passes_close hz).bind fun rest hr => .ok (.intro (List.forall_mem_singleton.2 hc) hb) hr
  case h_4 =>
    refine (reads_expectName h.rest).bind fun name us _ hu => ?_
    refine (passes_expectSign hu _).bind fun vs hv => ?_
    refine (reads_params hv).bind fun ps ws _ hw => (passes_expectSign hw _).bind fun xs hx => ?_
    refine (k.block hx.skipSemicolon).bind fun body ys hb hy => ?_
    exact (passes_close hy).bind fun rest hr => .ok (.intro (List.forall_mem_nil _) hb) hr
  case h_5 =>
    refine (reads_returned h.rest).bind fun value us hv hu => .ok (.intro ?_ ?_) hu.skipSemicolon
    · cases value with
      | none => exact List.forall_mem_nil _
      | some e => exact List.forall_mem_singleton.2 (hv e rfl)
    · cases value <;> exact none
  case h_6 =>
    split
    · exact .ok (.intro (List.forall_mem_nil _) none) h.rest.skipSemicolon
    · exact .error _
  case h_7 =>
    split
    · exact .ok (.intro (List.forall_mem_nil _) none) h.rest.skipSemicolon
    · exact .error _
  case h_8 =>
    refine (e.expr h).bind fun e us he hu => ?_
    exact .ok (.intro (List.forall_mem_singleton.2 he) none) hu.skipSemicolon

theorem block_succ {closing : List Keyword} (h : ts.In R) :
    Reads R (∀ s ∈ ·, Stmt.In R s) (Parse.block (n + 1) inLoop closing ts) := by
  rw [Parse.block]
  split
  · exact .ok (List.forall_mem_nil _) h
  · split
    · exact .ok (List.forall_mem_nil _) h
    · refine (k.stmt h).bind fun s us hs hu => (k.block hu).bind fun rest ws hr hw => ?_
      exact .ok (List.forall_mem_cons.2 ⟨hs, hr⟩) hw

theorem branches_succ (h : ts.In R) :
    Reads R (∀ b ∈ ·, Expr.In R b.1 ∧ ∀ s ∈ b.2, Stmt.In R s)
      (Parse.branches (n + 1) inLoop ts) := by
  rw [Parse.branches]
  split
  · refine (reads_condition h.rest).bind fun c us hc hu => (k.block hu).bind fun body vs hb hv => ?_
    refine (k.branches hv).bind fun rest ws hr hw => ?_
    exact .ok (List.forall_mem_cons.2 ⟨⟨hc, hb⟩, hr⟩) hw
  · exact .ok (List.forall_mem_nil _) h

theorem otherwise_succ (h : ts.In R) :
    Reads R (∀ s ∈ ·.getD [], Stmt.In R s) (Parse.otherwise (n + 1) inLoop ts) := by
  rw [Parse.otherwise]
  split
  · exact (k.block h.rest.skipSemicolon).bind fun body us hb hu => .ok hb hu
  · exact .ok (List.forall_mem_nil _) h

end ReadsStmt

theorem readsStmt (R : Region) (n : Nat) : ReadsStmt R n := by
  induction n with
  | zero => exact readsStmt_zero
  | succ n k => exact ⟨k.stmt_succ, k.block_succ, k.branches_succ, k.otherwise_succ⟩

end Parse

theorem TokenStream.program_in {ts : TokenStream} {body : List Stmt} (h : Ahead.In R ts)
    (parsed : ts.program = .ok body) : ∀ s ∈ body, s.In R := by
  obtain ⟨r, read, rfl⟩ := Parse.ok_of_map parsed
  exact ((Parse.readsStmt R _).block h _ _ read).1

theorem TokenStream.expression_in {ts : TokenStream} {e : Expr} (h : Ahead.In R ts)
    (parsed : ts.expression = .ok e) : e.In R := by
  obtain ⟨r, read, rfl⟩ := Parse.ok_of_map parsed
  exact ((Parse.readsExpr R _).expr h _ _ read).1

theorem Marker.parse_in {source : String} {p : Position} {e : Expr} (line : R.lines p.line)
    (plain : ∀ c ∈ source.toList, c ≠ '}' ∧ c ≠ '\n') (parsed : parse source p = .ok e) :
    e.In R := by
  have brace : '}' ∉ source.toList := fun h => (plain _ h).1 rfl
  have newline : '\n' ∉ source.toList := fun h => (plain _ h).2 rfl
  obtain ⟨ts, scanned, parsed⟩ := Parse.ok_of_bind parsed
  refine TokenStream.expression_in (fun t ht => ⟨?_, fun s hs => ?_⟩) (Parse.ok_of_mapError parsed)
  · rw [TokenStream.line_eq_of_mem scanned newline ht]
    exact line
  · rw [TokenStream.tokens_ofSource scanned] at ht
    have quiet := scanFrom_quiet brace 0 p t ht
    rw [hs] at quiet
    exact R.quiet s t.position quiet

def TokenStream.region (ts : TokenStream) : Region where
  lines l := ∃ t ∈ ts.tokens, t.position.line = l
  texts s p := ⟨.text s, p⟩ ∈ ts.tokens ∨ '}' ∉ s.toList
  quiet _ _ := .inr

theorem TokenStream.in_region (ts : TokenStream) : Ahead.In ts.region ts := by
  intro t ht
  refine ⟨⟨t, ht, rfl⟩, fun s hs => .inl ?_⟩
  rw [← hs]
  exact ht

end CanvasScript
