import CanvasScript.Proofs.Evaluations
import CanvasScript.Proofs.Termination.Markers

namespace CanvasScript

namespace Weight

variable {α : Type}

def total (w : α → Nat) : List α → Nat
  | [] => 0
  | a :: l => w a + 1 + total w l

@[simp] theorem total_nil (w : α → Nat) : total w [] = 0 := rfl

@[simp] theorem total_cons (w : α → Nat) (a : α) (l : List α) :
    total w (a :: l) = w a + 1 + total w l := rfl

@[simp] theorem total_append (w : α → Nat) (l m : List α) :
    total w (l ++ m) = total w l + total w m := by
  induction l with
  | nil => simp
  | cons a l ih => simp [ih, Nat.add_assoc]

theorem total_map {β : Type} (f : α → β) (w : β → Nat) (l : List α) :
    total w (l.map f) = total (fun a => w (f a)) l := by
  induction l with
  | nil => rfl
  | cons a l ih => rw [List.map_cons, total_cons, total_cons, ih]

theorem lt_total_of_mem (w : α → Nat) {a : α} {l : List α} (h : a ∈ l) : w a < total w l := by
  induction l with
  | nil => cases h
  | cons b l ih =>
    rw [total_cons]
    rcases List.mem_cons.1 h with rfl | h
    · omega
    · have := ih h
      omega

theorem total_le {v w : α → Nat} {l : List α} (h : ∀ a ∈ l, v a ≤ w a) : total v l ≤ total w l := by
  induction l with
  | nil => exact Nat.le_refl _
  | cons a l ih =>
    have ha := h a List.mem_cons_self
    have hl := ih fun b hb => h b (List.mem_cons_of_mem a hb)
    simp only [total_cons]
    omega

def tree [SizeOf α] (parts : α → List α) (smaller : ∀ a, ∀ b ∈ parts a, sizeOf b < sizeOf a)
    (own : α → Nat) (a : α) : Nat :=
  own a + total (fun b : { b // b ∈ parts a } => tree parts smaller own b.1) (parts a).attach
termination_by sizeOf a
decreasing_by exact smaller a b.1 b.2

theorem tree_eq [SizeOf α] {parts : α → List α}
    {smaller : ∀ a, ∀ b ∈ parts a, sizeOf b < sizeOf a} {own : α → Nat} (a : α) :
    tree parts smaller own a = own a + total (tree parts smaller own) (parts a) := by
  rw [tree, ← total_map Subtype.val (tree parts smaller own), List.attach_map_subtype_val]

end Weight

open Weight (total)

theorem Target.sizeOf_lt_of_mem_parts {t : Target} {d : Expr} (h : d ∈ t.parts) :
    sizeOf d < sizeOf t := by
  cases t with
  | member owner property =>
    rw [List.mem_singleton.1 h]
    simp
    omega
  | index owner i =>
    simp only [parts, List.mem_cons, List.not_mem_nil, or_false] at h
    rw [Target.index.sizeOf_spec]
    rcases h with rfl | rfl <;> omega
  | _ => cases h

theorem Expr.sizeOf_lt_of_mem_parts (e d : Expr) (h : d ∈ e.parts) : sizeOf d < sizeOf e := by
  cases e with
  | assign target value p | compound op target value p =>
    rcases List.mem_append.1 h with h | h
    · have := Target.sizeOf_lt_of_mem_parts h
      simp
      omega
    · rw [List.mem_singleton.1 h]
      simp
      omega
  | unary op operand p | member operand property p =>
    rw [List.mem_singleton.1 h]
    simp
    omega
  | binary op left right p | index left right p =>
    simp only [parts, List.mem_cons, List.not_mem_nil, or_false] at h
    rcases h with rfl | rfl <;> simp <;> omega
  | call callee args p =>
    rcases List.mem_cons.1 h with rfl | h
    · simp
      omega
    · have := List.sizeOf_lt_of_mem h
      simp
      omega
  | array items p =>
    have := List.sizeOf_lt_of_mem (show d ∈ items from h)
    simp
    omega
  | object ps p =>
    obtain ⟨⟨key, d⟩, hq, rfl⟩ := List.mem_map.1 h
    have := List.sizeOf_lt_of_mem hq
    simp at *
    omega
  | _ => cases h

theorem Stmt.sizeOf_lt_of_mem_within (s t : Stmt) (h : t ∈ s.within) : sizeOf t < sizeOf s := by
  cases s with
  | return_ | break_ | continue_ | expr => cases h
  | function name params body p | while_ c body p | for_ counter count body p =>
    have := List.sizeOf_lt_of_mem (show t ∈ body from h)
    simp
    omega
  | branch c body elseifs otherwise p =>
    simp only [within, inner, List.mem_append, List.mem_flatMap] at h
    rcases h with (h | ⟨b, hb, h⟩) | h
    · have := List.sizeOf_lt_of_mem h
      simp
      omega
    · have := List.sizeOf_lt_of_mem hb
      have := List.sizeOf_lt_of_mem h
      obtain ⟨d, body'⟩ := b
      simp at *
      omega
    · cases otherwise with
      | none => cases h
      | some body' =>
        have := List.sizeOf_lt_of_mem (show t ∈ body' from h)
        simp
        omega

namespace Expr

def plainWeight : Expr → Nat := Weight.tree parts sizeOf_lt_of_mem_parts fun _ => 3

end Expr

def Segment.weight (p : Position) : Segment → Nat
  | text _ => 0
  | expr source => (Marker.parse source p).toOption.elim 0 Expr.plainWeight

namespace Expr

def rootWeight : Expr → Nat
  | literal (.text s) p => 2 + total (Segment.weight p) (Marker.segments s)
  | _ => 2

def weight : Expr → Nat := Weight.tree parts sizeOf_lt_of_mem_parts rootWeight

theorem plainWeight_eq (e : Expr) : e.plainWeight = 3 + total plainWeight e.parts :=
  Weight.tree_eq e

theorem weight_eq (e : Expr) : e.weight = e.rootWeight + total weight e.parts :=
  Weight.tree_eq e

theorem weight_ge (e : Expr) : 2 + total weight e.parts ≤ e.weight := by
  rw [weight_eq]
  unfold rootWeight
  split <;> omega

theorem Quiet.weight_le {e : Expr} (h : e.Quiet) : e.weight ≤ e.plainWeight := by
  induction h with
  | @intro e _ text ih =>
    have root : e.rootWeight ≤ 3 := by
      unfold rootWeight
      split
      · rename_i s p _
        rw [Marker.segments, Marker.segmentsFrom_quiet (text s p rfl), Marker.flush]
        split <;> simp [Segment.weight]
      · decide
    have parts := Weight.total_le ih
    rw [weight_eq, plainWeight_eq]
    omega

end Expr

theorem Segment.weight_of_parse {source : String} {p : Position} {e : Expr}
    (h : Marker.parse source p = .ok e) (hq : '}' ∉ source.toList) :
    e.weight ≤ weight p (expr source) := by
  rw [weight, h]
  exact (Marker.parse_quiet h hq).weight_le

namespace Stmt

def rootWeight : Stmt → Nat
  | for_ _ _ _ _ => 3 + Number.pow2 53
  | _ => 3

def weight : Stmt → Nat :=
  Weight.tree within sizeOf_lt_of_mem_within fun s => s.rootWeight + total Expr.weight s.exprs

theorem weight_eq (s : Stmt) :
    s.weight = s.rootWeight + total Expr.weight s.exprs + total weight s.within :=
  Weight.tree_eq s

end Stmt

def Job.weight : Job → Nat
  | block _ ss => total Stmt.weight ss + 1
  | stmt _ s => s.weight
  | branches _ bs otherwise =>
    total Expr.weight (bs.map (·.1)) + total Stmt.weight (bs.flatMap (·.2) ++ otherwise.getD []) + 2
  | whileLoop _ _ _ => 0
  | forLoop _ _ count body k => (count - k) + total Stmt.weight body + 2
  | expr e => e.weight
  | exprs es => total Expr.weight es + 1
  | properties ps _ => total Expr.weight (ps.map (·.2)) + 1
  | interpolated p segments _ => total (Segment.weight p) segments + 1
  | place target => total Expr.weight target.parts + 1
  | call _ _ _ => 0

end CanvasScript
