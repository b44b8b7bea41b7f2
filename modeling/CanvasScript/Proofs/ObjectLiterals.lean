import CanvasScript.Proofs.Evaluations.Outcomes
import CanvasScript.Proofs.Grammar.Soundness

namespace CanvasScript

variable {σ : Type} {env : Embedding σ}

inductive InTurn (env : Embedding σ) : List (String × Expr) → State σ →
    Except Stop (List (String × Value)) → State σ → Prop
  | done (s : State σ) : InTurn env [] s (.ok []) s
  | stopped {key : String} {e : Expr} {rest : List (String × Expr)} {s t : State σ} {stop : Stop} :
      (Job.expr e).Ends env s (.error stop) t → InTurn env ((key, e) :: rest) s (.error stop) t
  | next {key : String} {e : Expr} {rest : List (String × Expr)} {s t u : State σ} {v : Value}
      {r : Except Stop (List (String × Value))} :
      (Job.expr e).Ends env s (.ok v) t → InTurn env rest t r u →
      InTurn env ((key, e) :: rest) s (r.map ((key, v) :: ·)) u

namespace InTurn

variable {ps : List (String × Expr)} {s t : State σ} {r : Except Stop (List (String × Value))}

theorem of_cons {key : String} {e : Expr} {vs : List (String × Value)}
    (h : InTurn env ((key, e) :: ps) s (.ok vs) t) : ∃ v u ws,
      (Job.expr e).Ends env s (.ok v) u ∧ InTurn env ps u (.ok ws) t ∧ vs = (key, v) :: ws := by
  generalize hr : (Except.ok vs : Except Stop _) = r at h
  cases h with
  | stopped => cases hr
  | @next _ _ _ _ u _ v r he hps =>
    cases r with
    | error stop => cases hr
    | ok ws =>
      cases hr
      exact ⟨v, u, ws, he, hps, rfl⟩

theorem keys {vs : List (String × Value)} (h : InTurn env ps s (.ok vs) t) :
    vs.map (·.1) = ps.map (·.1) := by
  induction ps generalizing s vs with
  | nil =>
    cases h
    rfl
  | cons p ps ih =>
    obtain ⟨v, u, ws, -, hps, rfl⟩ := of_cons h
    rw [List.map_cons, List.map_cons, ih hps]

end InTurn

namespace Job

theorem ends_properties {ps : List (String × Expr)} {fields : Fields Value} {s t : State σ}
    {r : Except Stop (Fields Value)} : (properties ps fields).Ends env s r t ↔
      ∃ o, InTurn env ps s o t ∧
        r = o.map fun vs => vs.foldl (fun f p => f.set p.1 p.2) fields := by
  induction ps generalizing fields s t r with
  | nil =>
    rw [ends_iff, plan, Plan.ends_pure]
    constructor
    · intro h
      cases h
      exact ⟨_, .done s, rfl⟩
    · rintro ⟨o, ⟨_⟩, rfl⟩
      rfl
  | cons p ps ih =>
    obtain ⟨key, e⟩ := p
    rw [ends_iff, plan, Plan.ends_bind]
    constructor
    · rintro (⟨stop, he, rfl⟩ | ⟨v, u, he, hr⟩)
      · exact ⟨_, .stopped he, rfl⟩
      · obtain ⟨o, ho, rfl⟩ := ih.1 hr
        refine ⟨_, .next he ho, ?_⟩
        cases o <;> rfl
    · rintro ⟨o, ho, rfl⟩
      cases ho with
      | stopped he => exact .inl ⟨_, he, rfl⟩
      | @next _ _ _ _ u _ v o he ho =>
        refine .inr ⟨v, u, he, ih.2 ⟨o, ho, ?_⟩⟩
        cases o <;> rfl

theorem ends_object {ps : List (String × Expr)} {p : Position} {s t : State σ}
    {r : Except Stop Value} : (expr (.object ps p)).Ends env s r t ↔
      (∃ stop, InTurn env ps s (.error stop) t ∧ r = .error stop) ∨
      ∃ vs u, InTurn env ps s (.ok vs) u ∧ Action.newObject (Fields.ofList vs) u = (r, t) := by
  rw [ends_iff, plan, Plan.ends_bind]
  have evaluated {r : Except Stop (Fields Value)} {u : State σ} :
      (Plan.ask (properties ps .empty)).Ends s r u ↔
        ∃ o, InTurn env ps s o u ∧ r = o.map Fields.ofList :=
    Plan.ends_ask.trans ends_properties
  constructor
  · rintro (⟨stop, he, rfl⟩ | ⟨fields, u, he, hr⟩)
    · obtain ⟨o, ho, h⟩ := evaluated.1 he
      cases o with
      | error => cases h; exact .inl ⟨_, ho, rfl⟩
      | ok => cases h
    · obtain ⟨o, ho, h⟩ := evaluated.1 he
      cases o with
      | error => cases h
      | ok vs => cases h; exact .inr ⟨vs, u, ho, (Plan.ends_step.1 hr).2⟩
  · rintro (⟨stop, ho, rfl⟩ | ⟨vs, u, ho, made⟩)
    · exact .inl ⟨stop, evaluated.2 ⟨_, ho, rfl⟩, rfl⟩
    · refine .inr ⟨.ofList vs, u, evaluated.2 ⟨_, ho, rfl⟩, Plan.ends_step.2 ⟨?_, made⟩⟩
      cases made
      intro ended
      cases ended

end Job

theorem Parse.primary_of_brace {n : Nat} {ts rest : Ahead} {e : Expr}
    (brace : ts.head? = some (.sign .leftBrace)) (parsed : Parse.primary n ts = .ok (e, rest)) :
    ∃ m written, Parse.properties m ts.rest = .ok (written, rest) ∧
      e = .object (Fields.ofList written).entries ts.position := by
  cases n with
  | zero => cases parsed
  | succ m =>
    rw [Parse.primary, brace] at parsed
    obtain ⟨⟨written, us⟩, read, made⟩ := ok_of_bind parsed
    cases made
    exact ⟨m, written, read, rfl⟩

theorem objectLiteral_in_turn (n : Nat) (ts rest : Ahead) (e : Expr)
    (brace : ts.head? = some (.sign .leftBrace)) (parsed : Parse.primary n ts = .ok (e, rest)) :
    ∃ (m : Nat) (written entries : List (String × Expr)) (cs : List Token) (p q : Position),
      Parse.properties m ts.rest = .ok (written, rest) ∧
      ts.tokens = Sign.leftBrace.token p :: (cs ++ Sign.rightBrace.token q :: rest.tokens) ∧
      Written true (.properties written) cs ∧ Fields.Merges written entries ∧
      e = .object entries ts.position ∧
      ∀ (env : Embedding σ) (s t : State σ) (r : Except Stop Value),
        (Job.expr e).Ends env s r t ↔
          (∃ stop, InTurn env entries s (.error stop) t ∧ r = .error stop) ∨
          ∃ vs u, InTurn env entries s (.ok vs) u ∧ Action.newObject ⟨vs⟩ u = (r, t) := by
  obtain ⟨m, written, read, rfl⟩ := Parse.primary_of_brace brace parsed
  obtain ⟨p, hp⟩ := Ahead.tokens_of_head?_sign brace
  obtain ⟨q, cs, hcs, hw⟩ := (Parse.soundExpr m).properties read
  refine ⟨m, written, _, cs, p, q, read, by rw [hp, hcs], hw, Fields.ofList_merges written, rfl, ?_⟩
  intro env s t r
  rw [Job.ends_object]
  refine or_congr_right (exists₂_congr fun vs u => and_congr_right fun turn => ?_)
  have distinct : (vs.map (·.1)).Nodup := turn.keys ▸ Fields.nodup_ofList written
  rw [show Fields.ofList vs = ⟨vs⟩ from congrArg Fields.mk (Fields.ofList_entries distinct)]

def repeatedKey : Ahead :=
  let name (x : String) : Token := ⟨.name x, .start⟩
  let sign (s : Sign) : Token := s.token .start
  let keyword (k : Keyword) : Token := k.token .start
  ⟨[sign .leftBrace, name "a", sign .colon, name "x", sign .plusPlus, sign .comma, name "b",
      sign .colon, keyword .true_, sign .comma, name "a", sign .colon, keyword .null,
      sign .rightBrace], .start⟩

def keptProperties : List (String × Expr) :=
  [("a", .literal .null .start), ("b", .literal (.bool true) .start)]

theorem primary_repeatedKey :
    Parse.primary 40 repeatedKey = .ok (.object keptProperties .start, ⟨[], .start⟩) := by
  rfl

theorem repeatedKey_in_turn :
    repeatedKey.head? = some (.sign .leftBrace) ∧
    Parse.primary 40 repeatedKey = .ok (.object keptProperties .start, ⟨[], .start⟩) ∧
    ∀ (env : Embedding Unit) (s t : State Unit) (r : Except Stop Value),
      (Job.expr (.object keptProperties .start)).Ends env s r t ↔
        (∃ stop, InTurn env keptProperties s (.error stop) t ∧ r = .error stop) ∨
        ∃ vs u, InTurn env keptProperties s (.ok vs) u ∧ Action.newObject ⟨vs⟩ u = (r, t) := by
  obtain ⟨_, _, _, _, _, _, -, -, -, -, tree, ends⟩ :=
    objectLiteral_in_turn (σ := Unit) 40 repeatedKey ⟨[], .start⟩ _ rfl primary_repeatedKey
  cases tree
  exact ⟨rfl, primary_repeatedKey, ends⟩

theorem repeatedKey_skipped :
    ¬ ∀ (env : Embedding Unit) (m : Nat) (ts rest : Ahead) (e : Expr)
      (written : List (String × Expr)), ts.head? = some (.sign .leftBrace) →
      Parse.primary (m + 1) ts = .ok (e, rest) → Parse.properties m ts.rest = .ok (written, rest) →
      ∀ (s t : State Unit) (r : Except Stop Value), (Job.expr e).Ends env s r t →
        (∃ stop, InTurn env written s (.error stop) t ∧ r = .error stop) ∨
        ∃ vs u, InTurn env written s (.ok vs) u ∧
          Action.newObject (Fields.ofList vs) u = (r, t) := by
  intro claimed
  let env : Embedding Unit := .plain (.silent Unit)
  let s : State Unit := { State.initial env .standard () with bindings := ∅ }
  have turn : InTurn env keptProperties s (.ok [("a", .null), ("b", .bool true)]) s :=
    .next (Job.ends_literal (by simp)) (.next (Job.ends_literal (by simp)) (.done s))
  have ends := Job.ends_object (p := .start).2 (.inr ⟨_, s, turn, rfl⟩)
  rcases claimed env 39 repeatedKey _ _ _ rfl primary_repeatedKey rfl s _ _ ends with
    ⟨_, -, h⟩ | ⟨vs, u, written, made⟩
  · cases h
  · have unchanged : u.bindings = ∅ := congrArg (fun r => r.2.bindings) made
    obtain ⟨_, _, _, first, written, -⟩ := written.of_cons
    obtain ⟨_, _, _, second, written, -⟩ := written.of_cons
    obtain ⟨_, _, _, third, written, -⟩ := written.of_cons
    cases Job.ends_update.1 first
    cases (second.unique (Job.ends_literal (by simp))).2
    cases (third.unique (Job.ends_literal (by simp))).2
    cases written
    have bound := congrArg (fun b : Bindings => b["x"]?) unchanged
    simp at bound

end CanvasScript
