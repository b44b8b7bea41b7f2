import CanvasScript.Proofs.Descents.Steps

namespace CanvasScript

namespace Descent

open Work

namespace Task

def ahead : Task → Ahead
  | sign _ ts | keyword _ ts | name ts | names ts | expr ts | chain _ ts | chainRest _ _ ts
  | operand _ ts | unary ts | postfixed ts | accesses _ ts | primary ts | items _ ts
  | itemsRest _ ts | properties ts | propertiesRest ts | stmt _ ts | block _ _ ts | branches _ ts
  | otherwise _ ts => ts

def optional : Task → Bool
  | chainRest _ _ _ | accesses _ _ | block _ _ _ | branches _ _ | otherwise _ _ => true
  | _ => false

end Task

def Outcome {α : Type} (whole : TokenStream) (Q : α → Prop) : Except Refusal α → Prop
  | .ok a => Q a
  | .error e => e.Blames whole

section Runs

variable {mode : Mode} {whole : TokenStream} {high : Nat} {α : Type} {t i : Task}

theorem Work.Safe.outcome {x : Work α} {Q : α → Prop} (hx : x.Safe whole high Q)
    (lower : ∀ t : Task, t.Starts whole → t.height < high →
      ∃ s, t.Yields mode s ∧ Outcome whole (t.Ends whole) s) :
    ∃ s, x.Yields mode s ∧ Outcome whole Q s := by
  induction x with
  | done a => exact ⟨_, .done a, hx⟩
  | stop e => exact ⟨_, .stop e, hx⟩
  | ask t next ih =>
    obtain ⟨starts, low, goesOn⟩ := hx
    obtain ⟨s, first, good⟩ := lower t starts low
    cases s with
    | error e => exact ⟨_, .refused first, good⟩
    | ok r =>
      obtain ⟨s, others, good⟩ := ih r (goesOn r good)
      exact ⟨s, .asked first others, good⟩

-- by induction on the height, as no plan sets a task as high as its own
theorem Task.Starts.outcome (mode : Mode) (h : t.Starts whole) :
    ∃ s, t.Yields mode s ∧ Outcome whole (t.Ends whole) s := by
  induction hn : t.height using Nat.strongRecOn generalizing t with
  | _ n ih =>
    subst hn
    exact (safe_plan h).outcome fun i hi low => ih i.height low hi rfl

theorem Task.Starts.of_yields (h : t.Starts whole) {s : Except Refusal t.Result}
    (hs : t.Yields mode s) : Outcome whole (t.Ends whole) s := by
  obtain ⟨s', hs', good⟩ := h.outcome mode
  rw [hs.unique hs']
  exact good

theorem Work.Safe.starts {x : Work α} {Q : α → Prop} (hx : x.Safe whole high Q)
    (h : x.Sets mode i) : i.Starts whole := by
  induction h with
  | here => exact hx.1
  | later first others ih => exact ih (hx.2.2 _ (hx.1.of_yields first))

theorem Task.Begins.starts (h : t.Begins mode i) (ht : t.Starts whole) : i.Starts whole := by
  induction h with
  | self => exact ht
  | sets begun set ih => exact (safe_plan ih).starts set

end Runs

section Ends

variable {whole : TokenStream} {t : Task}

theorem Entry.starts (entry : Entry) (whole : TokenStream) : (entry.task whole).Starts whole := by
  cases entry with
  | program => exact .all whole
  | expression => exact .all whole

theorem Task.Starts.left (h : t.Starts whole) : Left whole t.ahead := by
  cases t
  case chainRest | accesses => exact h.1
  all_goals exact h

theorem Task.Ends.passed {r : t.Result} (h : t.Ends whole r) :
    Passed whole (t.ahead.length + t.optional.toNat) r.2 := by
  cases t
  case expr | chain | operand | unary | postfixed | primary | chainRest | accesses => exact h.1
  all_goals exact h

theorem length_drop (k : Nat) : Ahead.length (whole.drop k) = whole.tokens.length - k :=
  List.length_drop

theorem Task.Ends.further {r : t.Result} (h : t.Ends whole r) {k : Nat}
    (hk : k ≤ whole.tokens.length) (starts : t.ahead = whole.drop k) :
    ∃ k', k ≤ k' ∧ k' ≤ whole.tokens.length ∧ r.2 = whole.drop k' ∧
      (t.optional = false → k < k') := by
  obtain ⟨⟨k', hk', left⟩, short⟩ := h.passed
  rw [starts, left, length_drop, length_drop] at short
  refine ⟨k', ?_, hk', left, fun needed => ?_⟩
  · have := t.optional.toNat_le
    omega
  · rw [needed, Bool.toNat_false] at short
    omega

theorem Refusal.Blames.position_mem {e : Refusal} (h : e.Blames whole) :
    e.diagnostic.position ∈ whole.places := by
  cases e with
  | missing ts what => exact Left.position_mem h
  | refused ts d => exact h.2.1

theorem code_expected {what : Expectation} {found : Option Lexeme} :
    (Problem.expected what found).code = "P003" ↔ found = none := by
  cases found with
  | none => exact ⟨fun _ => rfl, fun _ => rfl⟩
  | some l => cases what <;> simp [Problem.code]

theorem Refusal.Blames.code_iff {e : Refusal} (h : e.Blames whole) :
    e.diagnostic.code = "P003" ↔
      ∃ what, e = .missing (whole.drop whole.tokens.length) what := by
  cases e with
  | missing ts what =>
    refine code_expected.trans ?_
    constructor
    · intro ended
      have nothing : ts.tokens = [] := List.head?_eq_none_iff.1 (Option.map_eq_none_iff.1 ended)
      exact ⟨what, by rw [Left.eq_end h nothing]⟩
    · rintro ⟨what', he⟩
      cases he
      simp [Ahead.head?, TokenStream.drop]
  | refused ts d =>
    constructor
    · intro hc
      exact absurd hc h.2.2
    · rintro ⟨what, he⟩
      cases he

end Ends

end Descent

open Descent

theorem parse_ends (mode : Mode) (entry : Entry) (whole : TokenStream) :
    (∃ s, (entry.task whole).Yields mode s ∧ (∀ s', (entry.task whole).Yields mode s' → s' = s) ∧
      entry.read whole = (s.mapError Refusal.diagnostic).map Prod.fst) ∧
    (∀ t, (entry.task whole).Begins mode t →
      ∃ k s n, k ≤ whole.tokens.length ∧ t.ahead = whole.drop k ∧ t.Yields mode s ∧
        (∀ m, n ≤ m → t.run m = s.mapError Refusal.diagnostic) ∧
        ∀ r, s = .ok r → ∃ k', k ≤ k' ∧ k' ≤ whole.tokens.length ∧ r.2 = whole.drop k' ∧
          (t.optional = false → k < k')) ∧
    (∀ d, entry.read whole = .error d → d.position ∈ whole.places ∧
      (d.code = "P003" ↔ ∃ what, (entry.task whole).Yields mode
        (.error (.missing (whole.drop whole.tokens.length) what)))) := by
  have starts := entry.starts whole
  obtain ⟨s, hs, good⟩ := starts.outcome mode
  have read := Entry.read_eq hs
  refine ⟨⟨s, hs, fun s' hs' => hs'.unique hs, read⟩, ?_, ?_⟩
  · intro t begun
    have ht := begun.starts starts
    obtain ⟨k, hk, ahead⟩ := ht.left
    obtain ⟨s, hs, good⟩ := ht.outcome mode
    obtain ⟨n, run⟩ := hs.run
    refine ⟨k, s, n, hk, ahead, hs, run, ?_⟩
    intro r hr
    subst hr
    exact good.further hk ahead
  · intro d hd
    rw [read] at hd
    cases s with
    | ok r => cases hd
    | error e =>
      cases hd
      refine ⟨good.position_mem, good.code_iff.trans ?_⟩
      constructor
      · rintro ⟨what, rfl⟩
        exact ⟨what, hs⟩
      · rintro ⟨what, he⟩
        exact ⟨what, Except.error.inj (hs.unique he)⟩

end CanvasScript
