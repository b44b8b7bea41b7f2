import CanvasScript.Proofs.Descents.Outcomes
import CanvasScript.Proofs.Layout.Scanning

namespace CanvasScript

def TokenStream.drop (whole : TokenStream) (k : Nat) : TokenStream :=
  { whole with tokens := whole.tokens.drop k }

namespace Descent

open Ahead Work

def Left (whole : TokenStream) (us : Ahead) : Prop :=
  ∃ k, k ≤ whole.tokens.length ∧ us = whole.drop k

structure Passed (whole : TokenStream) (n : Nat) (us : Ahead) : Prop where
  left : Left whole us
  short : us.length < n

section Left

variable {whole : TokenStream} {n : Nat} {ts us : Ahead}

theorem Left.all (whole : TokenStream) : Left whole whole := ⟨0, Nat.zero_le _, rfl⟩

theorem Left.rest (h : Left whole us) : Left whole us.rest := by
  obtain ⟨k, hk, rfl⟩ := h
  obtain hk | rfl := Nat.lt_or_eq_of_le hk
  · exact ⟨k + 1, hk, by simp [Ahead.rest, TokenStream.drop]⟩
  · exact ⟨_, Nat.le_refl _, by simp [Ahead.rest, TokenStream.drop]⟩

theorem Left.skipSemicolon (h : Left whole us) : Left whole us.skipSemicolon := by
  unfold Ahead.skipSemicolon
  split
  · exact h.rest
  · exact h

theorem Left.position_mem (h : Left whole us) : us.position ∈ whole.places := by
  obtain ⟨k, -, rfl⟩ := h
  unfold Ahead.position TokenStream.drop TokenStream.places
  cases hd : whole.tokens.drop k with
  | nil => exact List.mem_append_right _ (List.mem_singleton.2 rfl)
  | cons t ts =>
    have ht : t ∈ whole.tokens := List.mem_of_mem_drop (hd ▸ List.mem_cons_self)
    exact List.mem_append_left _ (List.mem_map_of_mem ht)

theorem Left.eq_end (h : Left whole us) (he : us.tokens = []) :
    us = whole.drop whole.tokens.length := by
  obtain ⟨k, hk, rfl⟩ := h
  have : whole.tokens.length ≤ k := List.drop_eq_nil_iff.1 he
  rw [Nat.le_antisymm hk this]

theorem Passed.here (h : Left whole us) : Passed whole (us.length + 1) us :=
  ⟨h, Nat.lt_succ_self _⟩

theorem Passed.rest (h : Passed whole n us) : Passed whole n us.rest :=
  ⟨h.left.rest, Nat.lt_of_le_of_lt us.length_rest_le h.short⟩

theorem Passed.skipSemicolon (h : Passed whole n us) : Passed whole n us.skipSemicolon :=
  ⟨h.left.skipSemicolon, Nat.lt_of_le_of_lt us.length_skipSemicolon_le h.short⟩

theorem Passed.trans (h : Passed whole n ts) (h' : Passed whole ts.length us) :
    Passed whole n us :=
  ⟨h'.left, Nat.lt_trans h'.short h.short⟩

theorem Passed.trans_le (h : Passed whole n ts) (h' : Passed whole (ts.length + 1) us) :
    Passed whole n us :=
  ⟨h'.left, Nat.lt_of_le_of_lt (Nat.le_of_lt_succ h'.short) h.short⟩

theorem Passed.le (h : Passed whole n us) : Passed whole (n + 1) us :=
  ⟨h.left, Nat.lt_succ_of_lt h.short⟩

theorem Passed.of_head {l : Lexeme} (h : Left whole us) (hl : us.head? = some l) :
    Passed whole us.length us.rest :=
  ⟨h.rest, length_rest_lt hl⟩

theorem Passed.of_bind {α : Type} {f : Lexeme → Option α} {a : α} (h : Left whole us)
    (ha : us.head?.bind f = some a) : Passed whole us.length us.rest :=
  ⟨h.rest, length_rest_lt_of_bind ha⟩

theorem Passed.of_startsWith {f : Lexeme → Bool} (h : Left whole us)
    (hf : us.startsWith f = true) : Passed whole us.length us.rest :=
  ⟨h.rest, length_rest_lt_of_startsWith hf⟩

end Left

namespace Task

def Starts (whole : TokenStream) : Task → Prop
  | sign _ ts | keyword _ ts | name ts | names ts | expr ts | chain _ ts | operand _ ts | unary ts
  | postfixed ts | primary ts | items _ ts | itemsRest _ ts | properties ts | propertiesRest ts
  | stmt _ ts | block _ _ ts | branches _ ts | otherwise _ ts => Left whole ts
  | chainRest _ e ts | accesses e ts => Left whole ts ∧ e.position ∈ whole.places

def Ends (whole : TokenStream) : (t : Task) → t.Result → Prop
  | sign _ ts, r | keyword _ ts, r => Passed whole ts.length r.2
  | name ts, r => Passed whole ts.length r.2
  | names ts, r => Passed whole ts.length r.2
  | expr ts, r | chain _ ts, r | operand _ ts, r | unary ts, r | postfixed ts, r | primary ts, r =>
    Passed whole ts.length r.2 ∧ r.1.position ∈ whole.places
  | chainRest _ _ ts, r | accesses _ ts, r =>
    Passed whole (ts.length + 1) r.2 ∧ r.1.position ∈ whole.places
  | items _ ts, r | itemsRest _ ts, r => Passed whole ts.length r.2
  | properties ts, r | propertiesRest ts, r => Passed whole ts.length r.2
  | stmt _ ts, r => Passed whole ts.length r.2
  | block _ _ ts, r => Passed whole (ts.length + 1) r.2
  | branches _ ts, r => Passed whole (ts.length + 1) r.2
  | otherwise _ ts, r => Passed whole (ts.length + 1) r.2

/-- How far the task is from its end: twenty for each token ahead, and what there is to go down the
grammar before the next one. -/
def height : Task → Nat
  | sign _ ts | keyword _ ts | name ts => 20 * ts.length
  | names ts | chainRest _ _ ts | accesses _ ts | primary ts => 20 * ts.length + 1
  | postfixed ts => 20 * ts.length + 2
  | unary ts => 20 * ts.length + 3
  | operand level ts => 20 * ts.length + level.descent
  | chain level ts => 20 * ts.length + level.descent + 1
  | expr ts => 20 * ts.length + 16
  | itemsRest _ ts | propertiesRest ts | stmt _ ts => 20 * ts.length + 17
  | items _ ts | properties ts | block _ _ ts | branches _ ts | otherwise _ ts =>
    20 * ts.length + 18

end Task

def Refusal.Blames (whole : TokenStream) : Refusal → Prop
  | missing ts _ => Left whole ts
  | refused ts d => Left whole ts ∧ d.position ∈ whole.places ∧ d.code ≠ "P003"

def Work.Safe {α : Type} (whole : TokenStream) (high : Nat) (Q : α → Prop) : Work α → Prop
  | done a => Q a
  | stop e => e.Blames whole
  | ask t next =>
    t.Starts whole ∧ t.height < high ∧ ∀ r, t.Ends whole r → (next r).Safe whole high Q

section Safe

variable {whole : TokenStream} {high : Nat} {α β : Type} {ts us : Ahead}

theorem Work.Safe.bind {x : Work α} {f : α → Work β} {P : α → Prop} {Q : β → Prop}
    (hx : x.Safe whole high P) (hf : ∀ a, P a → (f a).Safe whole high Q) :
    (x >>= f).Safe whole high Q := by
  induction x with
  | done a => exact hf a hx
  | stop e => exact hx
  | ask t next ih => exact ⟨hx.1, hx.2.1, fun r hr => ih r (hx.2.2 r hr)⟩

theorem Work.Safe.mono {x : Work α} {P Q : α → Prop} (hx : x.Safe whole high P)
    (h : ∀ a, P a → Q a) : x.Safe whole high Q := by
  induction x with
  | done a => exact h a hx
  | stop e => exact hx
  | ask t next ih => exact ⟨hx.1, hx.2.1, fun r hr => ih r (hx.2.2 r hr)⟩

theorem safe_pure {Q : α → Prop} {a : α} (h : Q a) : (pure a : Work α).Safe whole high Q := h

theorem safe_missing {Q : α → Prop} (h : Left whole us) (what : Expectation) :
    (missing us what : Work α).Safe whole high Q := h

theorem safe_task {t : Task} (starts : t.Starts whole) (lower : t.height < high) :
    (task t).Safe whole high (t.Ends whole) :=
  ⟨starts, lower, fun _ hr => hr⟩

theorem Passed.lower {n : Nat} (h : Passed whole n us) (c : Nat) (hc : 20 * n + c < high + 20) :
    20 * us.length + c < high := by
  have := h.short
  omega

theorem safe_passed_or {f : Lexeme → Bool} {a : α} {x : Work (α × Ahead)} (h : Left whole ts)
    (hx : x.Safe whole high fun r => Passed whole ts.length r.2) :
    (if ts.startsWith f then pure (a, ts.rest) else x).Safe whole high
      fun r => Passed whole ts.length r.2 := by
  split
  · rename_i found
    exact safe_pure (.of_startsWith h found)
  · exact hx

theorem safe_passSign (s : Sign) (h : Left whole ts) (lower : 20 * ts.length < high) :
    (passSign s ts).Safe whole high (Passed whole ts.length) :=
  (safe_task (t := .sign s ts) h lower).bind fun _ hr => safe_pure hr

theorem safe_passKeyword (k : Keyword) (h : Left whole ts) (lower : 20 * ts.length < high) :
    (passKeyword k ts).Safe whole high (Passed whole ts.length) :=
  (safe_task (t := .keyword k ts) h lower).bind fun _ hr => safe_pure hr

theorem safe_close (h : Left whole ts) (lower : 20 * ts.length < high) :
    (close ts).Safe whole high (Passed whole ts.length) :=
  (safe_passKeyword .end_ h lower).bind fun _ hus => safe_pure hus.skipSemicolon

theorem safe_params (h : Left whole ts) (lower : 20 * ts.length + 1 < high) :
    (params ts).Safe whole high fun r => Passed whole (ts.length + 1) r.2 := by
  unfold params
  split
  · exact safe_pure (.here h)
  · exact (safe_task (t := .names ts) h lower).mono fun r hr => hr.le

theorem safe_condition (h : Left whole ts) (lower : 20 * ts.length + 16 ≤ high) :
    (condition ts).Safe whole high fun r => Passed whole ts.length r.2 := by
  refine (safe_passSign _ h (by omega)).bind fun us opened => ?_
  refine (safe_task (t := .expr us) opened.left (opened.lower 16 (by omega))).bind fun r hr => ?_
  have read := opened.trans hr.1
  refine (safe_passSign _ read.left (read.lower 0 (by omega))).bind fun ws closed => ?_
  exact safe_pure (read.trans closed).skipSemicolon

theorem safe_body {n : Nat} {inLoop : Bool} {closing : List Keyword} (f : List Stmt → Stmt)
    (header : Passed whole n us) (lower : 20 * n + 18 < high + 20) :
    (do let body ← task (.block inLoop closing us)
        let rest ← close body.2
        return (f body.1, rest) : Work (Stmt × Ahead)).Safe whole high
      fun r => Passed whole n r.2 := by
  refine (safe_task (t := .block _ _ _) header.left (header.lower 18 lower)).bind
    fun body hb => ?_
  have inner := header.trans_le hb
  refine (safe_close inner.left (inner.lower 0 (by omega))).bind fun rest closed => ?_
  exact safe_pure (inner.trans closed)

theorem safe_returned (h : Left whole ts) (lower : 20 * ts.length + 16 < high) :
    (returned ts).Safe whole high fun r => Passed whole (ts.length + 1) r.2 := by
  unfold returned
  split
  · exact safe_pure (.here h)
  · refine (safe_task (t := .expr ts) h lower).bind fun r hr => ?_
    exact safe_pure hr.1.le

theorem safe_valued (key : String) (h : Left whole ts) (lower : 20 * ts.length + 17 ≤ high) :
    (valued key ts).Safe whole high fun r => Passed whole ts.length r.2 := by
  refine (safe_passSign _ h (by omega)).bind fun us colon => ?_
  refine (safe_task (t := .expr us) colon.left (colon.lower 16 (by omega))).bind fun r hr => ?_
  have read := colon.trans hr.1
  split
  · have comma := read.rest
    refine (safe_task (t := .propertiesRest _) comma.left (comma.lower 17 (by omega))).bind
      fun others ho => ?_
    exact safe_pure (comma.trans ho)
  · refine (safe_passSign _ read.left (read.lower 0 (by omega))).bind fun ws closed => ?_
    exact safe_pure (read.trans closed)

end Safe

section Plans

variable {mode : Mode} {whole : TokenStream} {ts : Ahead}

theorem safe_sign (s : Sign) (h : Left whole ts) :
    (plan mode (.sign s ts)).Safe whole (20 * ts.length) fun r => Passed whole ts.length r.2 :=
  safe_passed_or h (safe_missing h _)

theorem safe_keyword (k : Keyword) (h : Left whole ts) :
    (plan mode (.keyword k ts)).Safe whole (20 * ts.length)
      fun r => Passed whole ts.length r.2 :=
  safe_passed_or h (safe_missing h _)

theorem safe_name (h : Left whole ts) :
    (plan mode (.name ts)).Safe whole (20 * ts.length) fun r => Passed whole ts.length r.2 := by
  rw [plan]
  split
  case h_1 hd => exact safe_pure (.of_head h hd)
  case h_2 => exact safe_missing h _

theorem safe_names (h : Left whole ts) :
    (plan mode (.names ts)).Safe whole (20 * ts.length + 1)
      fun r => Passed whole ts.length r.2 := by
  refine (safe_task (t := .name ts) h (by simp only [Task.height]; omega)).bind fun first hf => ?_
  split
  · have comma := hf.rest
    refine (safe_task (t := .names _) comma.left (comma.lower 1 (by omega))).bind
      fun others ho => ?_
    exact safe_pure (comma.trans ho)
  · exact safe_pure hf

theorem safe_expr (h : Left whole ts) :
    (plan mode (.expr ts)).Safe whole (20 * ts.length + 16)
      fun r => Passed whole ts.length r.2 ∧ r.1.position ∈ whole.places := by
  have deep := Level.or.descent_le
  refine (safe_task (t := .chain .or ts) h (by simp only [Task.height]; omega)).bind
    fun left hl => ?_
  split
  · exact safe_pure hl
  · have assigned := hl.1.rest
    refine (safe_task (t := .expr _) assigned.left (assigned.lower 16 (by omega))).bind
      fun value hv => ?_
    have read := assigned.trans hv.1
    split
    · exact ⟨read.left, hl.2, (show "P004" ≠ "P003" by decide)⟩
    · split
      · exact safe_pure ⟨read, hl.2⟩
      · exact safe_pure ⟨read, hl.2⟩

theorem safe_chain (level : Level) (h : Left whole ts) :
    (plan mode (.chain level ts)).Safe whole (20 * ts.length + level.descent + 1)
      fun r => Passed whole ts.length r.2 ∧ r.1.position ∈ whole.places := by
  refine (safe_task (t := .operand level ts) h (by simp only [Task.height]; omega)).bind
    fun left hl => ?_
  refine (safe_task (t := .chainRest level left.1 left.2) ⟨hl.1.left, hl.2⟩
    (hl.1.lower 1 (by omega))).mono fun r hr => ?_
  exact ⟨hl.1.trans_le hr.1, hr.2⟩

theorem safe_chainRest (level : Level) {left : Expr} (h : Left whole ts)
    (placed : left.position ∈ whole.places) :
    (plan mode (.chainRest level left ts)).Safe whole (20 * ts.length + 1)
      fun r => Passed whole (ts.length + 1) r.2 ∧ r.1.position ∈ whole.places := by
  rw [plan]
  split
  · exact safe_pure ⟨.here h, placed⟩
  · rename_i op ho
    have deep := level.descent_le
    have passed := Passed.of_bind h ho
    refine (safe_task (t := .operand level _) passed.left
      (passed.lower level.descent (by omega))).bind fun right hr => ?_
    have read := passed.trans hr.1
    refine (safe_task (t := .chainRest level _ _) ⟨read.left, placed⟩
      (read.lower 1 (by omega))).mono fun r hr => ?_
    exact ⟨(read.trans_le hr.1).le, hr.2⟩

theorem safe_operand (level : Level) (h : Left whole ts) :
    (plan mode (.operand level ts)).Safe whole (20 * ts.length + level.descent)
      fun r => Passed whole ts.length r.2 ∧ r.1.position ∈ whole.places := by
  rw [plan]
  split
  · rename_i tighter ht
    have down := Level.descent_tighter ht
    exact safe_task (t := .chain tighter ts) h (show _ + _ + 1 < _ by omega)
  · have deep := level.descent_pos
    exact safe_task (t := .unary ts) h (show _ + 3 < _ by omega)

theorem safe_unary (h : Left whole ts) :
    (plan mode (.unary ts)).Safe whole (20 * ts.length + 3)
      fun r => Passed whole ts.length r.2 ∧ r.1.position ∈ whole.places := by
  rw [plan]
  split
  · exact safe_task (t := .postfixed ts) h (by simp only [Task.height]; omega)
  · rename_i op ho
    have passed := Passed.of_bind h ho
    refine (safe_task (t := .unary _) passed.left (passed.lower 3 (by omega))).bind
      fun inner hi => ?_
    exact safe_pure ⟨passed.trans hi.1, h.position_mem⟩

theorem safe_postfixed (h : Left whole ts) :
    (plan mode (.postfixed ts)).Safe whole (20 * ts.length + 2)
      fun r => Passed whole ts.length r.2 ∧ r.1.position ∈ whole.places := by
  refine (safe_task (t := .primary ts) h (by simp only [Task.height]; omega)).bind
    fun first hf => ?_
  refine (safe_task (t := .accesses first.1 first.2) ⟨hf.1.left, hf.2⟩
    (hf.1.lower 1 (by omega))).bind fun e he => ?_
  have read := hf.1.trans_le he.1
  split
  · exact safe_pure ⟨read, he.2⟩
  · split
    · rename_i hv
      have placed := he.2
      rw [hv] at placed
      exact safe_pure ⟨read.rest, placed⟩
    · exact ⟨read.left, read.left.position_mem, (show "P004" ≠ "P003" by decide)⟩

theorem safe_further {e : Expr} {us : Ahead} (read : Passed whole ts.length us)
    (placed : e.position ∈ whole.places) :
    (task (.accesses e us)).Safe whole (20 * ts.length + 1)
      fun r => Passed whole (ts.length + 1) r.2 ∧ r.1.position ∈ whole.places := by
  refine (safe_task (t := .accesses e us) ⟨read.left, placed⟩ (read.lower 1 (by omega))).mono
    fun r hr => ?_
  exact ⟨(read.trans_le hr.1).le, hr.2⟩

theorem safe_accesses {e : Expr} (h : Left whole ts) (placed : e.position ∈ whole.places) :
    (plan mode (.accesses e ts)).Safe whole (20 * ts.length + 1)
      fun r => Passed whole (ts.length + 1) r.2 ∧ r.1.position ∈ whole.places := by
  rw [plan]
  split
  case h_1 hd =>
    have dot := Passed.of_head h hd
    refine (safe_task (t := .name _) dot.left (dot.lower 0 (by omega))).bind fun property hp => ?_
    have read := dot.trans hp
    exact safe_further read placed
  case h_2 hd =>
    have opened := Passed.of_head h hd
    refine (safe_task (t := .expr _) opened.left (opened.lower 16 (by omega))).bind
      fun index hi => ?_
    have inner := opened.trans hi.1
    refine (safe_passSign _ inner.left (inner.lower 0 (by omega))).bind fun us closed => ?_
    have read := inner.trans closed
    exact safe_further read placed
  case h_3 hd =>
    have opened := Passed.of_head h hd
    refine (safe_task (t := .items _ _) opened.left (opened.lower 18 (by omega))).bind
      fun args ha => ?_
    have read := opened.trans ha
    exact safe_further read placed
  case h_4 => exact safe_pure ⟨.here h, placed⟩

theorem safe_primary (h : Left whole ts) :
    (plan mode (.primary ts)).Safe whole (20 * ts.length + 1)
      fun r => Passed whole ts.length r.2 ∧ r.1.position ∈ whole.places := by
  have here := h.position_mem
  rw [plan]
  split
  case h_1 bare => exact safe_pure ⟨.of_head h (Mode.name_of_bareName? bare), here⟩
  case h_2 =>
    split
    case h_1 hd => exact safe_pure ⟨.of_head h hd, here⟩
    case h_2 hd =>
      have dollar := Passed.of_head h hd
      refine (safe_task (t := .name _) dollar.left (dollar.lower 0 (by omega))).bind
        fun name hn => ?_
      exact safe_pure ⟨dollar.trans hn, here⟩
    case h_3 hd =>
      have opened := Passed.of_head h hd
      refine (safe_task (t := .items _ _) opened.left (opened.lower 18 (by omega))).bind
        fun es he => ?_
      exact safe_pure ⟨opened.trans he, here⟩
    case h_4 hd =>
      have opened := Passed.of_head h hd
      refine (safe_task (t := .properties _) opened.left (opened.lower 18 (by omega))).bind
        fun ps hp => ?_
      exact safe_pure ⟨opened.trans hp, here⟩
    case h_5 hd =>
      have opened := Passed.of_head h hd
      refine (safe_task (t := .expr _) opened.left (opened.lower 16 (by omega))).bind
        fun e he => ?_
      have inner := opened.trans he.1
      refine (safe_passSign _ inner.left (inner.lower 0 (by omega))).bind fun us closed => ?_
      exact safe_pure ⟨inner.trans closed, he.2⟩
    case h_6 =>
      split
      · rename_i hl
        exact safe_pure ⟨.of_bind h hl, here⟩
      · exact safe_missing h _

theorem safe_items (closing : Sign) (h : Left whole ts) :
    (plan mode (.items closing ts)).Safe whole (20 * ts.length + 18)
      fun r => Passed whole ts.length r.2 := by
  refine safe_passed_or h ?_
  exact safe_task (t := .itemsRest closing ts) h (by simp only [Task.height]; omega)

theorem safe_itemsRest (closing : Sign) (h : Left whole ts) :
    (plan mode (.itemsRest closing ts)).Safe whole (20 * ts.length + 17)
      fun r => Passed whole ts.length r.2 := by
  refine (safe_task (t := .expr ts) h (by simp only [Task.height]; omega)).bind fun e he => ?_
  split
  · have comma := he.1.rest
    refine (safe_task (t := .itemsRest closing _) comma.left (comma.lower 17 (by omega))).bind
      fun es hes => ?_
    exact safe_pure (comma.trans hes)
  · refine (safe_passSign _ he.1.left (he.1.lower 0 (by omega))).bind fun us closed => ?_
    exact safe_pure (he.1.trans closed)

theorem safe_properties (h : Left whole ts) :
    (plan mode (.properties ts)).Safe whole (20 * ts.length + 18)
      fun r => Passed whole ts.length r.2 := by
  refine safe_passed_or h ?_
  exact safe_task (t := .propertiesRest ts) h (by simp only [Task.height]; omega)

theorem safe_propertiesRest (h : Left whole ts) :
    (plan mode (.propertiesRest ts)).Safe whole (20 * ts.length + 17)
      fun r => Passed whole ts.length r.2 := by
  rw [plan]
  split
  case h_1 hd | h_2 hd =>
    have key := Passed.of_head h hd
    have := key.short
    exact (safe_valued _ key.left (by omega)).mono fun r hr => key.trans hr
  case h_3 => exact safe_missing h _

theorem safe_stmt (inLoop : Bool) (h : Left whole ts) :
    (plan mode (.stmt inLoop ts)).Safe whole (20 * ts.length + 17)
      fun r => Passed whole ts.length r.2 := by
  rw [plan]
  split
  case h_1 hd =>
    have if_ := Passed.of_head h hd
    have := if_.short
    refine (safe_condition if_.left (by omega)).bind fun c hc => ?_
    have header := if_.trans hc
    refine (safe_task (t := .block _ _ _) header.left (header.lower 18 (by omega))).bind
      fun body hb => ?_
    have inner := header.trans_le hb
    refine (safe_task (t := .branches _ _) inner.left (inner.lower 18 (by omega))).bind
      fun elseifs he => ?_
    have alternatives := inner.trans_le he
    refine (safe_task (t := .otherwise _ _) alternatives.left
      (alternatives.lower 18 (by omega))).bind fun otherwise ho => ?_
    have last := alternatives.trans_le ho
    refine (safe_close last.left (last.lower 0 (by omega))).bind fun us closed => ?_
    exact safe_pure (last.trans closed)
  case h_2 hd =>
    have while_ := Passed.of_head h hd
    have := while_.short
    refine (safe_condition while_.left (by omega)).bind fun c hc => ?_
    have header := while_.trans hc
    exact safe_body (.while_ c.1 · ts.position) header (by omega)
  case h_3 hd =>
    have for_ := Passed.of_head h hd
    refine (safe_passSign _ for_.left (for_.lower 0 (by omega))).bind fun us ho => ?_
    have opened := for_.trans ho
    refine (safe_task (t := .name _) opened.left (opened.lower 0 (by omega))).bind
      fun counter hn => ?_
    have named := opened.trans hn
    refine (safe_passSign _ named.left (named.lower 0 (by omega))).bind fun ws hc => ?_
    have comma := named.trans hc
    refine (safe_task (t := .expr _) comma.left (comma.lower 16 (by omega))).bind
      fun count he => ?_
    have counted := comma.trans he.1
    refine (safe_passSign _ counted.left (counted.lower 0 (by omega))).bind fun vs hp => ?_
    have header := (counted.trans hp).skipSemicolon
    exact safe_body (.for_ counter.1 count.1 · ts.position) header (by omega)
  case h_4 hd =>
    have function := Passed.of_head h hd
    refine (safe_task (t := .name _) function.left (function.lower 0 (by omega))).bind
      fun name hn => ?_
    have named := function.trans hn
    refine (safe_passSign _ named.left (named.lower 0 (by omega))).bind fun us ho => ?_
    have opened := named.trans ho
    refine (safe_params opened.left (opened.lower 1 (by omega))).bind fun ps hps => ?_
    have listed := opened.trans_le hps
    refine (safe_passSign _ listed.left (listed.lower 0 (by omega))).bind fun ws hp => ?_
    have header := (listed.trans hp).skipSemicolon
    exact safe_body (.function name.1 ps.1 · ts.position) header (by omega)
  case h_5 hd =>
    have return_ := Passed.of_head h hd
    refine (safe_returned return_.left (return_.lower 16 (by omega))).bind fun value hv => ?_
    exact safe_pure (return_.trans_le hv).skipSemicolon
  case h_6 hd =>
    split
    · exact safe_pure (Passed.of_head h hd).skipSemicolon
    · exact ⟨h, h.position_mem, (show "P005" ≠ "P003" by decide)⟩
  case h_7 hd =>
    split
    · exact safe_pure (Passed.of_head h hd).skipSemicolon
    · exact ⟨h, h.position_mem, (show "P006" ≠ "P003" by decide)⟩
  case h_8 =>
    refine (safe_task (t := .expr ts) h (by simp only [Task.height]; omega)).bind fun e he => ?_
    exact safe_pure he.1.skipSemicolon

theorem safe_block (inLoop : Bool) (closing : List Keyword) (h : Left whole ts) :
    (plan mode (.block inLoop closing ts)).Safe whole (20 * ts.length + 18)
      fun r => Passed whole (ts.length + 1) r.2 := by
  rw [plan]
  split
  case h_1 => exact safe_pure (.here h)
  case h_2 =>
    split
    · exact safe_pure (.here h)
    · refine (safe_task (t := .stmt inLoop ts) h (by simp only [Task.height]; omega)).bind
        fun s hs => ?_
      refine (safe_task (t := .block inLoop closing _) hs.left (hs.lower 18 (by omega))).bind
        fun others ho => ?_
      exact safe_pure (hs.trans_le ho).le

theorem safe_branches (inLoop : Bool) (h : Left whole ts) :
    (plan mode (.branches inLoop ts)).Safe whole (20 * ts.length + 18)
      fun r => Passed whole (ts.length + 1) r.2 := by
  rw [plan]
  split
  · rename_i elseif
    have passed := Passed.of_startsWith h elseif
    have := passed.short
    refine (safe_condition passed.left (by omega)).bind fun c hc => ?_
    have header := passed.trans hc
    refine (safe_task (t := .block _ _ _) header.left (header.lower 18 (by omega))).bind
      fun body hb => ?_
    have inner := header.trans_le hb
    refine (safe_task (t := .branches _ _) inner.left (inner.lower 18 (by omega))).bind
      fun others ho => ?_
    exact safe_pure (inner.trans_le ho).le
  · exact safe_pure (.here h)

theorem safe_otherwise (inLoop : Bool) (h : Left whole ts) :
    (plan mode (.otherwise inLoop ts)).Safe whole (20 * ts.length + 18)
      fun r => Passed whole (ts.length + 1) r.2 := by
  rw [plan]
  split
  · rename_i else_
    have header := (Passed.of_startsWith h else_).skipSemicolon
    refine (safe_task (t := .block _ _ _) header.left (header.lower 18 (by omega))).bind
      fun body hb => ?_
    exact safe_pure (header.trans_le hb).le
  · exact safe_pure (.here h)

theorem safe_plan {t : Task} (h : t.Starts whole) :
    (plan mode t).Safe whole t.height (t.Ends whole) := by
  cases t with
  | sign s ts => exact safe_sign s h
  | keyword k ts => exact safe_keyword k h
  | name ts => exact safe_name h
  | names ts => exact safe_names h
  | expr ts => exact safe_expr h
  | chain level ts => exact safe_chain level h
  | chainRest level left ts => exact safe_chainRest level h.1 h.2
  | operand level ts => exact safe_operand level h
  | unary ts => exact safe_unary h
  | postfixed ts => exact safe_postfixed h
  | accesses e ts => exact safe_accesses h.1 h.2
  | primary ts => exact safe_primary h
  | items closing ts => exact safe_items closing h
  | itemsRest closing ts => exact safe_itemsRest closing h
  | properties ts => exact safe_properties h
  | propertiesRest ts => exact safe_propertiesRest h
  | stmt inLoop ts => exact safe_stmt inLoop h
  | block inLoop closing ts => exact safe_block inLoop closing h
  | branches inLoop ts => exact safe_branches inLoop h
  | otherwise inLoop ts => exact safe_otherwise inLoop h

end Plans

end Descent

end CanvasScript
