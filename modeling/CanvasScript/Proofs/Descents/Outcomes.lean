import CanvasScript.Proofs.Descents

namespace CanvasScript.Descent

variable {mode : Mode} {α : Type}

inductive Work.Yields (mode : Mode) : {α : Type} → Work α → Except Refusal α → Prop where
  | done {α : Type} (a : α) : Yields mode (.done a) (.ok a)
  | stop {α : Type} (e : Refusal) : Yields mode (.stop e : Work α) (.error e)
  | asked {α : Type} {t : Task} {next : t.Result → Work α} {r : t.Result} {s : Except Refusal α}
      (first : Yields mode (plan mode t) (.ok r)) (others : Yields mode (next r) s) :
      Yields mode (.ask t next) s
  | refused {α : Type} {t : Task} {next : t.Result → Work α} {e : Refusal}
      (first : Yields mode (plan mode t) (.error e)) : Yields mode (.ask t next) (.error e)

inductive Work.Sets (mode : Mode) (i : Task) : Work α → Prop where
  | here {next : i.Result → Work α} : Sets mode i (.ask i next)
  | later {t : Task} {next : t.Result → Work α} {r : t.Result}
      (first : (plan mode t).Yields mode (.ok r)) (others : Sets mode i (next r)) :
      Sets mode i (.ask t next)

def Task.Yields (mode : Mode) (t : Task) (s : Except Refusal t.Result) : Prop :=
  (plan mode t).Yields mode s

inductive Task.Begins (mode : Mode) (t : Task) : Task → Prop where
  | self : Begins mode t t
  | sets {h i : Task} (begun : Begins mode t h) (set : (plan mode h).Sets mode i) : Begins mode t i

namespace Work.Yields

theorem unique {x : Work α} {s₁ s₂ : Except Refusal α} (h₁ : x.Yields mode s₁)
    (h₂ : x.Yields mode s₂) : s₁ = s₂ := by
  induction h₁ with
  | done a => cases h₂ with | done => rfl
  | stop e => cases h₂ with | stop => rfl
  | asked first others ih₁ ih₂ =>
    cases h₂ with
    | asked first' others' =>
      cases ih₁ first'
      exact ih₂ others'
    | refused first' => cases ih₁ first'
  | refused first ih =>
    cases h₂ with
    | asked first' others' => cases ih first'
    | refused first' =>
      cases ih first'
      rfl

theorem run {x : Work α} {s : Except Refusal α} (h : x.Yields mode s) :
    ∃ n, ∀ m, n ≤ m → x.run (Task.run m) = s.mapError Refusal.diagnostic := by
  induction h with
  | done a => exact ⟨0, fun _ _ => rfl⟩
  | stop e => exact ⟨0, fun _ _ => rfl⟩
  | @asked _ t next r s first others ih₁ ih₂ =>
    obtain ⟨n₁, h₁⟩ := ih₁
    obtain ⟨n₂, h₂⟩ := ih₂
    refine ⟨max (n₁ + 1) n₂, fun m hm => ?_⟩
    obtain ⟨k, rfl⟩ : ∃ k, m = k + 1 := ⟨m - 1, by omega⟩
    have done := h₁ k (by omega)
    rw [run_plan] at done
    rw [Work.run, done]
    exact h₂ (k + 1) (by omega)
  | @refused _ t next e first ih =>
    obtain ⟨n, h⟩ := ih
    refine ⟨n + 1, fun m hm => ?_⟩
    obtain ⟨k, rfl⟩ : ∃ k, m = k + 1 := ⟨m - 1, by omega⟩
    have done := h k (by omega)
    rw [run_plan] at done
    rw [Work.run, done]
    rfl

end Work.Yields

theorem Task.Yields.run {t : Task} {s : Except Refusal t.Result} (h : t.Yields mode s) :
    ∃ n, ∀ m, n ≤ m → t.run m = s.mapError Refusal.diagnostic := by
  obtain ⟨n, hn⟩ := Work.Yields.run h
  refine ⟨n + 1, fun m hm => ?_⟩
  obtain ⟨k, rfl⟩ : ∃ k, m = k + 1 := ⟨m - 1, by omega⟩
  rw [← @run_plan mode]
  exact hn k (by omega)

inductive Entry where
  | program
  | expression

namespace Entry

def task : Entry → TokenStream → Task
  | program, whole => .block false [] whole
  | expression, whole => .expr whole

def read : (entry : Entry) → (whole : TokenStream) → Except Diagnostic (entry.task whole).Value
  | program, whole => whole.program
  | expression, whole => whole.expression

theorem read_eq {entry : Entry} {whole : TokenStream}
    {s : Except Refusal (entry.task whole).Result} (h : (entry.task whole).Yields mode s) :
    entry.read whole = (s.mapError Refusal.diagnostic).map Prod.fst := by
  obtain ⟨n, hn⟩ := h.run
  have run := hn (max n (Parse.depth whole)) (Nat.le_max_left _ _)
  have deep := Nat.le_max_right n (Parse.depth whole)
  rw [← run]
  cases entry with
  | program =>
    have same := Parse.block_depth deep false []
    exact congrArg (Except.map Prod.fst) same.symm
  | expression => exact congrArg (Except.map Prod.fst) (Parse.expr_depth deep).symm

end Entry

end CanvasScript.Descent
