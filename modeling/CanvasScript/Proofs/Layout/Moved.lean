import CanvasScript.Proofs.Unplaced
import CanvasScript.Tree.Parse

namespace CanvasScript

section Maps

variable {α β : Type}

def Fields.map (f : α → β) (fs : Fields α) : Fields β := ⟨fs.entries.map fun e => (e.1, f e.2)⟩

namespace Fields

variable (f : α → β)

theorem get?_map (fs : Fields α) (key : String) : (fs.map f).get? key = (fs.get? key).map f := by
  obtain ⟨entries⟩ := fs
  simp only [get?, map]
  induction entries with
  | nil => rfl
  | cons e es ih =>
    obtain ⟨k, v⟩ := e
    simp only [List.map_cons, List.lookup_cons, ih]
    cases key == k <;> rfl

theorem put_map (key : String) (v : α) (es : List (String × α)) :
    put key (f v) (es.map fun e => (e.1, f e.2)) = (put key v es).map fun e => (e.1, f e.2) := by
  induction es with
  | nil => rfl
  | cons e es ih =>
    simp only [List.map_cons, put, ih]
    split <;> rfl

theorem set_map (fs : Fields α) (key : String) (v : α) :
    (fs.map f).set key (f v) = (fs.set key v).map f :=
  congrArg Fields.mk (put_map f key v fs.entries)

theorem ofList_map (es : List (String × α)) :
    ofList (es.map fun e => (e.1, f e.2)) = (ofList es).map f := by
  have fold (es : List (String × α)) (fs : Fields α) :
      (es.map fun e => (e.1, f e.2)).foldl (fun fs e => fs.set e.1 e.2) (fs.map f) =
        (es.foldl (fun fs e => fs.set e.1 e.2) fs).map f := by
    induction es generalizing fs with
    | nil => rfl
    | cons e es ih =>
      rw [List.map_cons, List.foldl_cons, List.foldl_cons, set_map, ih]
  exact fold es empty

end Fields

end Maps

mutual

def Expr.moved (τ : Position → Position) : Expr → Expr
  | .literal l p => .literal l (τ p)
  | .variable name p => .variable name (τ p)
  | .assign target value p => .assign (target.moved τ) (value.moved τ) (τ p)
  | .compound op target value p => .compound op (target.moved τ) (value.moved τ) (τ p)
  | .update op name p => .update op name (τ p)
  | .unary op operand p => .unary op (operand.moved τ) (τ p)
  | .binary op left right p => .binary op (left.moved τ) (right.moved τ) (τ p)
  | .call callee args p => .call (callee.moved τ) (Expr.movedList τ args) (τ p)
  | .member owner property p => .member (owner.moved τ) property (τ p)
  | .index owner i p => .index (owner.moved τ) (i.moved τ) (τ p)
  | .array items p => .array (Expr.movedList τ items) (τ p)
  | .object ps p => .object (Expr.movedProperties τ ps) (τ p)

def Target.moved (τ : Position → Position) : Target → Target
  | .variable name => .variable name
  | .member owner property => .member (owner.moved τ) property
  | .index owner i => .index (owner.moved τ) (i.moved τ)

def Expr.movedList (τ : Position → Position) : List Expr → List Expr
  | [] => []
  | e :: es => e.moved τ :: Expr.movedList τ es

def Expr.movedProperties (τ : Position → Position) : List (String × Expr) → List (String × Expr)
  | [] => []
  | (key, e) :: ps => (key, e.moved τ) :: Expr.movedProperties τ ps

end

mutual

def Stmt.moved (τ : Position → Position) : Stmt → Stmt
  | .function name params body p => .function name params (Stmt.movedList τ body) (τ p)
  | .return_ none p => .return_ none (τ p)
  | .return_ (some e) p => .return_ (some (e.moved τ)) (τ p)
  | .branch c body elseifs otherwise p =>
    .branch (c.moved τ) (Stmt.movedList τ body) (Stmt.movedBranches τ elseifs)
      (Stmt.movedOtherwise τ otherwise) (τ p)
  | .while_ c body p => .while_ (c.moved τ) (Stmt.movedList τ body) (τ p)
  | .for_ counter count body p => .for_ counter (count.moved τ) (Stmt.movedList τ body) (τ p)
  | .break_ p => .break_ (τ p)
  | .continue_ p => .continue_ (τ p)
  | .expr e => .expr (e.moved τ)

def Stmt.movedList (τ : Position → Position) : List Stmt → List Stmt
  | [] => []
  | s :: ss => s.moved τ :: Stmt.movedList τ ss

def Stmt.movedBranches (τ : Position → Position) :
    List (Expr × List Stmt) → List (Expr × List Stmt)
  | [] => []
  | (c, body) :: bs => (c.moved τ, Stmt.movedList τ body) :: Stmt.movedBranches τ bs

def Stmt.movedOtherwise (τ : Position → Position) : Option (List Stmt) → Option (List Stmt)
  | none => none
  | some body => some (Stmt.movedList τ body)

end

def FunctionDecl.moved (τ : Position → Position) (d : FunctionDecl) : FunctionDecl :=
  ⟨d.name, d.params, Stmt.movedList τ d.body, τ d.position⟩

variable (τ : Position → Position)

namespace Expr

theorem position_moved (e : Expr) : (e.moved τ).position = τ e.position := by
  cases e <;> rfl

theorem target?_moved (e : Expr) : (e.moved τ).target? = e.target?.map (Target.moved τ) := by
  cases e <;> rfl

theorem movedProperties_eq_map (ps : List (String × Expr)) :
    movedProperties τ ps = ps.map fun e => (e.1, e.2.moved τ) := by
  induction ps with
  | nil => rfl
  | cons p ps ih => rw [movedProperties, ih, List.map_cons]

theorem ofList_movedProperties (ps : List (String × Expr)) :
    (Fields.ofList (movedProperties τ ps)).entries =
      movedProperties τ (Fields.ofList ps).entries := by
  rw [movedProperties_eq_map, movedProperties_eq_map, Fields.ofList_map, Fields.map]

end Expr

section Identity

mutual

theorem Expr.moved_id : ∀ e : Expr, e.moved id = e
  | .literal _ _ => rfl
  | .variable _ _ => rfl
  | .assign target value _ => by rw [Expr.moved, Target.moved_id target, Expr.moved_id value]; rfl
  | .compound _ target value _ => by
    rw [Expr.moved, Target.moved_id target, Expr.moved_id value]; rfl
  | .update _ _ _ => rfl
  | .unary _ operand _ => by rw [Expr.moved, Expr.moved_id operand]; rfl
  | .binary _ left right _ => by rw [Expr.moved, Expr.moved_id left, Expr.moved_id right]; rfl
  | .call callee args _ => by rw [Expr.moved, Expr.moved_id callee, Expr.movedList_id args]; rfl
  | .member owner _ _ => by rw [Expr.moved, Expr.moved_id owner]; rfl
  | .index owner i _ => by rw [Expr.moved, Expr.moved_id owner, Expr.moved_id i]; rfl
  | .array items _ => by rw [Expr.moved, Expr.movedList_id items]; rfl
  | .object ps _ => by rw [Expr.moved, Expr.movedProperties_id ps]; rfl

theorem Target.moved_id : ∀ target : Target, target.moved id = target
  | .variable _ => rfl
  | .member owner _ => by rw [Target.moved, Expr.moved_id owner]
  | .index owner i => by rw [Target.moved, Expr.moved_id owner, Expr.moved_id i]

theorem Expr.movedList_id : ∀ es : List Expr, Expr.movedList id es = es
  | [] => rfl
  | e :: es => by rw [Expr.movedList, Expr.moved_id e, Expr.movedList_id es]

theorem Expr.movedProperties_id : ∀ ps : List (String × Expr), Expr.movedProperties id ps = ps
  | [] => rfl
  | (_, e) :: ps => by rw [Expr.movedProperties, Expr.moved_id e, Expr.movedProperties_id ps]

end

mutual

theorem Stmt.moved_id : ∀ s : Stmt, s.moved id = s
  | .function _ _ body _ => by rw [Stmt.moved, Stmt.movedList_id body]; rfl
  | .return_ none _ => rfl
  | .return_ (some e) _ => by rw [Stmt.moved, Expr.moved_id e]; rfl
  | .branch c body elseifs otherwise _ => by
    rw [Stmt.moved, Expr.moved_id c, Stmt.movedList_id body, Stmt.movedBranches_id elseifs,
      Stmt.movedOtherwise_id otherwise]; rfl
  | .while_ c body _ => by rw [Stmt.moved, Expr.moved_id c, Stmt.movedList_id body]; rfl
  | .for_ _ count body _ => by rw [Stmt.moved, Expr.moved_id count, Stmt.movedList_id body]; rfl
  | .break_ _ => rfl
  | .continue_ _ => rfl
  | .expr e => by rw [Stmt.moved, Expr.moved_id e]

theorem Stmt.movedList_id : ∀ ss : List Stmt, Stmt.movedList id ss = ss
  | [] => rfl
  | s :: ss => by rw [Stmt.movedList, Stmt.moved_id s, Stmt.movedList_id ss]

theorem Stmt.movedBranches_id : ∀ bs : List (Expr × List Stmt), Stmt.movedBranches id bs = bs
  | [] => rfl
  | (c, body) :: bs => by
    rw [Stmt.movedBranches, Expr.moved_id c, Stmt.movedList_id body, Stmt.movedBranches_id bs]

theorem Stmt.movedOtherwise_id :
    ∀ otherwise : Option (List Stmt), Stmt.movedOtherwise id otherwise = otherwise
  | none => rfl
  | some body => by rw [Stmt.movedOtherwise, Stmt.movedList_id body]

end

theorem FunctionDecl.moved_id (d : FunctionDecl) : d.moved id = d := by
  rw [moved, Stmt.movedList_id]
  rfl

end Identity

def Token.moved (t : Token) : Token := ⟨t.lexeme, τ t.position⟩

def TokenStream.moved (ts : TokenStream) : TokenStream :=
  ⟨ts.tokens.map (Token.moved τ), τ ts.finish⟩

def Problem.moved : Problem → Problem
  | .invalidUpdateTarget operator operand => .invalidUpdateTarget operator (τ operand)
  | problem => problem

def Problem.unplaced (problem : Problem) : Problem := problem.moved fun _ => .start

theorem Problem.unplaced_moved (problem : Problem) :
    (problem.moved τ).unplaced = problem.unplaced := by
  cases problem <;> rfl

def Diagnostic.moved (d : Diagnostic) : Diagnostic := ⟨d.problem.moved τ, τ d.position⟩

def Diagnostic.unplaced (d : Diagnostic) : Diagnostic := ⟨d.problem.unplaced, .start⟩

theorem Diagnostic.unplaced_moved (d : Diagnostic) : (d.moved τ).unplaced = d.unplaced :=
  congrArg (Diagnostic.mk · .start) (Problem.unplaced_moved τ d.problem)

theorem Diagnostic.code_moved (d : Diagnostic) : (d.moved τ).code = d.code := by
  obtain ⟨problem, position⟩ := d
  cases problem <;> rfl

end CanvasScript
