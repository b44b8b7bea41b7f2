import CanvasScript.Tree.Parse

namespace CanvasScript

inductive Grade where
  | assignment
  | binary (level : Level)
  | unary
  | postfixed
  | suffixed
deriving DecidableEq, Repr

def Level.rank : Level → Nat
  | or => 1
  | and => 2
  | equality => 3
  | relational => 4
  | additive => 5
  | multiplicative => 6

def Grade.rank : Grade → Nat
  | assignment => 0
  | binary level => level.rank
  | unary => 7
  | postfixed => 8
  | suffixed => 9

instance : LE Grade := ⟨fun g h => g.rank ≤ h.rank⟩

instance (g h : Grade) : Decidable (g ≤ h) := inferInstanceAs (Decidable (g.rank ≤ h.rank))

theorem Grade.le_def {g h : Grade} : g ≤ h ↔ g.rank ≤ h.rank := Iff.rfl

def Grade.ofRank : Nat → Grade
  | 0 => .assignment
  | 1 => .binary .or
  | 2 => .binary .and
  | 3 => .binary .equality
  | 4 => .binary .relational
  | 5 => .binary .additive
  | 6 => .binary .multiplicative
  | 7 => .unary
  | 8 => .postfixed
  | _ => .suffixed

theorem Grade.ofRank_rank (g : Grade) : ofRank g.rank = g := by
  cases g with
  | binary level => cases level <;> rfl
  | _ => rfl

theorem Grade.rank_injective {g h : Grade} (hr : g.rank = h.rank) : g = h := by
  rw [← ofRank_rank g, hr, ofRank_rank]

theorem Grade.le_suffixed (g : Grade) : g ≤ .suffixed := by
  match g with
  | .binary level => cases level <;> decide
  | .assignment | .unary | .postfixed | .suffixed => decide

def Level.operandGrade (level : Level) : Grade :=
  match level.tighter? with
  | some tighter => .binary tighter
  | none => .unary

theorem Level.rank_lt_operandGrade (level : Level) : level.rank < level.operandGrade.rank := by
  cases level <;> decide

def BinaryOp.level : BinaryOp → Level
  | arith .add => .additive
  | arith .sub => .additive
  | arith .mul => .multiplicative
  | arith .div => .multiplicative
  | eq => .equality
  | ne => .equality
  | lt => .relational
  | le => .relational
  | gt => .relational
  | ge => .relational
  | and => .and
  | or => .or

def Expr.grade : Expr → Grade
  | .assign _ _ _ => .assignment
  | .compound _ _ _ _ => .assignment
  | .binary op _ _ _ => .binary op.level
  | .unary _ _ _ => .unary
  | .update _ _ _ => .postfixed
  | _ => .suffixed

def BinaryOp.spellings : BinaryOp → List Lexeme
  | arith .add => [.sign .plus]
  | arith .sub => [.sign .minus]
  | arith .mul => [.sign .star]
  | arith .div => [.sign .slash]
  | eq => [.sign .eqEq]
  | ne => [.sign .bangEq]
  | lt => [.sign .lt]
  | le => [.sign .ltEq]
  | gt => [.sign .gt]
  | ge => [.sign .gtEq]
  | and => [.sign .ampAmp, .keyword .and]
  | or => [.sign .pipePipe, .keyword .or]

def UnaryOp.spellings : UnaryOp → List Lexeme
  | neg => [.sign .minus]
  | not => [.sign .bang, .keyword .not]

theorem BinaryOp.exists_spelling (op : BinaryOp) : ∃ l, l ∈ op.spellings := by
  cases op with
  | arith op => cases op <;> exact ⟨_, List.mem_cons_self⟩
  | _ => exact ⟨_, List.mem_cons_self⟩

theorem UnaryOp.exists_spelling (op : UnaryOp) : ∃ l, l ∈ op.spellings := by
  cases op <;> exact ⟨_, List.mem_cons_self⟩

def UpdateOp.sign : UpdateOp → Sign
  | increment => .plusPlus
  | decrement => .minusMinus

def ArithOp.assignSign : ArithOp → Sign
  | add => .plusEq
  | sub => .minusEq
  | mul => .starEq
  | div => .slashEq

def Literal.lexeme : Literal → Lexeme
  | number x => .number x
  | text s => .text s
  | bool true => .keyword .true_
  | bool false => .keyword .false_
  | null => .keyword .null
  | undefined => .keyword .undefined

def Sign.token (s : Sign) (p : Position) : Token := ⟨.sign s, p⟩

def Keyword.token (k : Keyword) (p : Position) : Token := ⟨.keyword k, p⟩

inductive Phrase where
  | expr (needed : Grade) (e : Expr)
  | items (es : List Expr)
  | properties (ps : List (String × Expr))
  | names (xs : List String)
  | stmt (inLoop : Bool) (s : Stmt)
  | block (inLoop : Bool) (ss : List Stmt)
  | branches (inLoop : Bool) (bs : List (Expr × List Stmt))
  | otherwise (inLoop : Bool) (body : Option (List Stmt))

inductive Semicolon (lax : Bool) : List Token → Prop
  | written (p : Position) : Semicolon lax [Sign.semicolon.token p]
  | omitted : lax = true → Semicolon lax []

inductive Written (lax : Bool) : Phrase → List Token → Prop
  | literal {g : Grade} (l : Literal) (p q : Position) :
      Written lax (.expr g (.literal l p)) [⟨l.lexeme, q⟩]
  | name {g : Grade} (x : String) (p q : Position) :
      Written lax (.expr g (.variable x p)) [⟨.name x, q⟩]
  | dollarName {g : Grade} (x : String) (p q r : Position) :
      Written lax (.expr g (.variable x p)) [Sign.dollar.token q, ⟨.name x, r⟩]
  | assign {g : Grade} {left value : Expr} {target : Target} {ls vs : List Token}
      (p q : Position) : g ≤ .assignment → left.target? = some target →
      Written lax (.expr (.binary .or) left) ls → Written lax (.expr .assignment value) vs →
      Written lax (.expr g (.assign target value p)) (ls ++ Sign.eq.token q :: vs)
  | compound {g : Grade} {left value : Expr} {target : Target} {ls vs : List Token} (op : ArithOp)
      (p q : Position) : g ≤ .assignment → left.target? = some target →
      Written lax (.expr (.binary .or) left) ls → Written lax (.expr .assignment value) vs →
      Written lax (.expr g (.compound op target value p)) (ls ++ op.assignSign.token q :: vs)
  | update {g : Grade} {x : String} {p : Position} {xs : List Token} (op : UpdateOp)
      (q r : Position) : g ≤ .postfixed → Written lax (.expr .suffixed (.variable x p)) xs →
      Written lax (.expr g (.update op x q)) (xs ++ [op.sign.token r])
  | unary {g : Grade} {operand : Expr} {ts : List Token} {op : UnaryOp} {l : Lexeme}
      (p q : Position) : g ≤ .unary → l ∈ op.spellings → Written lax (.expr .unary operand) ts →
      Written lax (.expr g (.unary op operand p)) (⟨l, q⟩ :: ts)
  | binary {g : Grade} {left right : Expr} {ls rs : List Token} {op : BinaryOp} {l : Lexeme}
      (p q : Position) : g ≤ .binary op.level → l ∈ op.spellings →
      Written lax (.expr (.binary op.level) left) ls →
      Written lax (.expr op.level.operandGrade right) rs →
      Written lax (.expr g (.binary op left right p)) (ls ++ ⟨l, q⟩ :: rs)
  | call {g : Grade} {callee : Expr} {args : List Expr} {cs ts : List Token} (p q r : Position) :
      Written lax (.expr .suffixed callee) cs → Written lax (.items args) ts →
      Written lax (.expr g (.call callee args p))
        (cs ++ Sign.leftParen.token q :: ts ++ [Sign.rightParen.token r])
  | member {g : Grade} {owner : Expr} {os : List Token} (property : String) (p q r : Position) :
      Written lax (.expr .suffixed owner) os →
      Written lax (.expr g (.member owner property p))
        (os ++ [Sign.dot.token q, ⟨.name property, r⟩])
  | index {g : Grade} {owner i : Expr} {os ts : List Token} (p q r : Position) :
      Written lax (.expr .suffixed owner) os → Written lax (.expr .assignment i) ts →
      Written lax (.expr g (.index owner i p))
        (os ++ Sign.leftBracket.token q :: ts ++ [Sign.rightBracket.token r])
  | array {g : Grade} {es : List Expr} {ts : List Token} (p q r : Position) :
      Written lax (.items es) ts →
      Written lax (.expr g (.array es p))
        (Sign.leftBracket.token q :: ts ++ [Sign.rightBracket.token r])
  | object {g : Grade} {ps : List (String × Expr)} {ts : List Token} (p q r : Position) :
      Written lax (.properties ps) ts →
      Written lax (.expr g (.object (Fields.ofList ps).entries p))
        (Sign.leftBrace.token q :: ts ++ [Sign.rightBrace.token r])
  | paren {g : Grade} {e : Expr} {ts : List Token} (q r : Position) :
      lax = true ∨ ¬ g ≤ e.grade → Written lax (.expr .assignment e) ts →
      Written lax (.expr g e) (Sign.leftParen.token q :: ts ++ [Sign.rightParen.token r])
  | noItems : Written lax (.items []) []
  | lastItem {e : Expr} {ts : List Token} : Written lax (.expr .assignment e) ts →
      Written lax (.items [e]) ts
  | item {e d : Expr} {es : List Expr} {ts us : List Token} (q : Position) :
      Written lax (.expr .assignment e) ts → Written lax (.items (d :: es)) us →
      Written lax (.items (e :: d :: es)) (ts ++ Sign.comma.token q :: us)
  | noProperties : Written lax (.properties []) []
  | lastProperty {key : String} {e : Expr} {l : Lexeme} {ts : List Token} (q r : Position) :
      l = .text key ∨ l = .name key → Written lax (.expr .assignment e) ts →
      Written lax (.properties [(key, e)]) (⟨l, q⟩ :: Sign.colon.token r :: ts)
  | property {key : String} {e : Expr} {p : String × Expr} {ps : List (String × Expr)} {l : Lexeme}
      {ts us : List Token} (q r c : Position) :
      l = .text key ∨ l = .name key → Written lax (.expr .assignment e) ts →
      Written lax (.properties (p :: ps)) us →
      Written lax (.properties ((key, e) :: p :: ps))
        (⟨l, q⟩ :: Sign.colon.token r :: ts ++ Sign.comma.token c :: us)
  | noNames : Written lax (.names []) []
  | lastName (x : String) (p : Position) : Written lax (.names [x]) [⟨.name x, p⟩]
  | nameList {x y : String} {xs : List String} {ts : List Token} (p q : Position) :
      Written lax (.names (y :: xs)) ts →
      Written lax (.names (x :: y :: xs)) (⟨.name x, p⟩ :: Sign.comma.token q :: ts)
  | function {inLoop : Bool} {name : String} {params : List String} {body : List Stmt}
      {ps hs bs es : List Token} (p q₁ q₂ q₃ q₄ q₅ : Position) :
      Written lax (.names params) ps → Semicolon true hs → Written lax (.block inLoop body) bs →
      Semicolon lax es →
      Written lax (.stmt inLoop (.function name params body p))
        (Keyword.function.token q₁ :: ⟨.name name, q₂⟩ :: Sign.leftParen.token q₃ :: ps ++
          Sign.rightParen.token q₄ :: hs ++ bs ++ Keyword.end_.token q₅ :: es)
  | returnNothing {inLoop : Bool} {es : List Token} (p q : Position) : Semicolon lax es →
      Written lax (.stmt inLoop (.return_ none p)) (Keyword.return_.token q :: es)
  | return_ {inLoop : Bool} {e : Expr} {ts es : List Token} (p q : Position) :
      Written lax (.expr .assignment e) ts → Semicolon lax es →
      Written lax (.stmt inLoop (.return_ (some e) p)) (Keyword.return_.token q :: ts ++ es)
  | branch {inLoop : Bool} {c : Expr} {body : List Stmt} {elseifs : List (Expr × List Stmt)}
      {other : Option (List Stmt)} {cs hs bs ls os es : List Token} (p q₁ q₂ q₃ q₄ : Position) :
      Written lax (.expr .assignment c) cs → Semicolon true hs →
      Written lax (.block inLoop body) bs → Written lax (.branches inLoop elseifs) ls →
      Written lax (.otherwise inLoop other) os → Semicolon lax es →
      Written lax (.stmt inLoop (.branch c body elseifs other p))
        (Keyword.if_.token q₁ :: Sign.leftParen.token q₂ :: cs ++ Sign.rightParen.token q₃ :: hs ++
          bs ++ ls ++ os ++ Keyword.end_.token q₄ :: es)
  | while_ {inLoop : Bool} {c : Expr} {body : List Stmt} {cs hs bs es : List Token}
      (p q₁ q₂ q₃ q₄ : Position) :
      Written lax (.expr .assignment c) cs → Semicolon true hs → Written lax (.block true body) bs →
      Semicolon lax es →
      Written lax (.stmt inLoop (.while_ c body p))
        (Keyword.while_.token q₁ :: Sign.leftParen.token q₂ :: cs ++
          Sign.rightParen.token q₃ :: hs ++ bs ++ Keyword.end_.token q₄ :: es)
  | for_ {inLoop : Bool} {counter : String} {count : Expr} {body : List Stmt}
      {cs hs bs es : List Token} (p q₁ q₂ q₃ q₄ q₅ q₆ : Position) :
      Written lax (.expr .assignment count) cs → Semicolon true hs →
      Written lax (.block true body) bs → Semicolon lax es →
      Written lax (.stmt inLoop (.for_ counter count body p))
        (Keyword.for_.token q₁ :: Sign.leftParen.token q₂ :: ⟨.name counter, q₃⟩ ::
          Sign.comma.token q₄ :: cs ++ Sign.rightParen.token q₅ :: hs ++ bs ++
          Keyword.end_.token q₆ :: es)
  | break_ {es : List Token} (p q : Position) : Semicolon lax es →
      Written lax (.stmt true (.break_ p)) (Keyword.break_.token q :: es)
  | continue_ {es : List Token} (p q : Position) : Semicolon lax es →
      Written lax (.stmt true (.continue_ p)) (Keyword.continue_.token q :: es)
  | expr {inLoop : Bool} {e : Expr} {ts es : List Token} :
      Written lax (.expr .assignment e) ts → Semicolon lax es →
      Written lax (.stmt inLoop (.expr e)) (ts ++ es)
  | noStmts {inLoop : Bool} : Written lax (.block inLoop []) []
  | stmts {inLoop : Bool} {s : Stmt} {ss : List Stmt} {ts us : List Token} :
      Written lax (.stmt inLoop s) ts → Written lax (.block inLoop ss) us →
      Written lax (.block inLoop (s :: ss)) (ts ++ us)
  | noBranches {inLoop : Bool} : Written lax (.branches inLoop []) []
  | branches {inLoop : Bool} {c : Expr} {body : List Stmt} {bs : List (Expr × List Stmt)}
      {cs hs ts us : List Token} (q₁ q₂ q₃ : Position) :
      Written lax (.expr .assignment c) cs → Semicolon true hs →
      Written lax (.block inLoop body) ts → Written lax (.branches inLoop bs) us →
      Written lax (.branches inLoop ((c, body) :: bs))
        (Keyword.elseif.token q₁ :: Sign.leftParen.token q₂ :: cs ++ Sign.rightParen.token q₃ ::
          hs ++ ts ++ us)
  | noOtherwise {inLoop : Bool} : Written lax (.otherwise inLoop none) []
  | otherwise {inLoop : Bool} {body : List Stmt} {hs ts : List Token} (q : Position) :
      Semicolon true hs → Written lax (.block inLoop body) ts →
      Written lax (.otherwise inLoop (some body)) (Keyword.else_.token q :: hs ++ ts)

end CanvasScript
