import CanvasScript.Fields
import CanvasScript.Tree

namespace CanvasScript

mutual

def Expr.unplaced : Expr → Expr
  | .literal l _ => .literal l .start
  | .variable name _ => .variable name .start
  | .assign target value _ => .assign target.unplaced value.unplaced .start
  | .compound op target value _ => .compound op target.unplaced value.unplaced .start
  | .update op name _ => .update op name .start
  | .unary op operand _ => .unary op operand.unplaced .start
  | .binary op left right _ => .binary op left.unplaced right.unplaced .start
  | .call callee args _ => .call callee.unplaced (Expr.unplacedList args) .start
  | .member owner property _ => .member owner.unplaced property .start
  | .index owner i _ => .index owner.unplaced i.unplaced .start
  | .array items _ => .array (Expr.unplacedList items) .start
  | .object ps _ => .object (Expr.unplacedProperties ps) .start

def Target.unplaced : Target → Target
  | .variable name => .variable name
  | .member owner property => .member owner.unplaced property
  | .index owner i => .index owner.unplaced i.unplaced

def Expr.unplacedList : List Expr → List Expr
  | [] => []
  | e :: es => e.unplaced :: Expr.unplacedList es

def Expr.unplacedProperties : List (String × Expr) → List (String × Expr)
  | [] => []
  | (key, e) :: ps => (key, e.unplaced) :: Expr.unplacedProperties ps

end

mutual

def Stmt.unplaced : Stmt → Stmt
  | .function name params body _ => .function name params (Stmt.unplacedList body) .start
  | .return_ none _ => .return_ none .start
  | .return_ (some e) _ => .return_ (some e.unplaced) .start
  | .branch c body elseifs otherwise _ =>
    .branch c.unplaced (Stmt.unplacedList body) (Stmt.unplacedBranches elseifs)
      (Stmt.unplacedOtherwise otherwise) .start
  | .while_ c body _ => .while_ c.unplaced (Stmt.unplacedList body) .start
  | .for_ counter count body _ => .for_ counter count.unplaced (Stmt.unplacedList body) .start
  | .break_ _ => .break_ .start
  | .continue_ _ => .continue_ .start
  | .expr e => .expr e.unplaced

def Stmt.unplacedList : List Stmt → List Stmt
  | [] => []
  | s :: ss => s.unplaced :: Stmt.unplacedList ss

def Stmt.unplacedBranches : List (Expr × List Stmt) → List (Expr × List Stmt)
  | [] => []
  | (c, body) :: bs => (c.unplaced, Stmt.unplacedList body) :: Stmt.unplacedBranches bs

def Stmt.unplacedOtherwise : Option (List Stmt) → Option (List Stmt)
  | none => none
  | some body => some (Stmt.unplacedList body)

end

theorem Expr.target?_unplaced (e : Expr) : e.unplaced.target? = e.target?.map Target.unplaced := by
  cases e <;> rfl

theorem Expr.target?_of_unplaced_eq {e d : Expr} (h : d.unplaced = e.unplaced) {t : Target}
    (ht : e.target? = some t) : ∃ u, d.target? = some u ∧ u.unplaced = t.unplaced := by
  have hd : d.target?.map Target.unplaced = some t.unplaced := by
    rw [← target?_unplaced, h, target?_unplaced, ht]
    rfl
  exact Option.map_eq_some_iff.1 hd

theorem Expr.eq_variable_of_unplaced_eq {e : Expr} {name : String} {p : Position}
    (h : e.unplaced = (Expr.variable name p).unplaced) : ∃ q, e = .variable name q := by
  match e with
  | .variable other q =>
    cases h
    exact ⟨q, rfl⟩
  | .literal .. | .assign .. | .compound .. | .update .. | .unary .. | .binary .. | .call ..
  | .member .. | .index .. | .array .. | .object .. => cases h

theorem Fields.put_unplacedProperties (key : String) (e : Expr) (es : List (String × Expr)) :
    put key e.unplaced (Expr.unplacedProperties es) = Expr.unplacedProperties (put key e es) := by
  induction es with
  | nil => rfl
  | cons d es ih =>
    obtain ⟨k, v⟩ := d
    simp only [Expr.unplacedProperties, put]
    split
    · rfl
    · rw [Expr.unplacedProperties, ih]

theorem Fields.ofList_unplacedProperties (es : List (String × Expr)) :
    (ofList (Expr.unplacedProperties es)).entries =
      Expr.unplacedProperties (ofList es).entries := by
  have fold (es : List (String × Expr)) (f : Fields Expr) :
      ((Expr.unplacedProperties es).foldl (fun f e => Fields.set f e.1 e.2)
        ⟨Expr.unplacedProperties f.entries⟩).entries =
      Expr.unplacedProperties (es.foldl (fun f e => Fields.set f e.1 e.2) f).entries := by
    induction es generalizing f with
    | nil => rfl
    | cons d es ih =>
      rw [Expr.unplacedProperties, List.foldl_cons, List.foldl_cons, ← ih]
      simp only [set, put_unplacedProperties]
  exact fold es empty

end CanvasScript
