import CanvasScript.Proofs.Grammar.Completeness
import Mathlib.Data.List.Induction

namespace CanvasScript

namespace Fields

variable {α : Type}

structure Merges (written entries : List (String × α)) : Prop where
  keys : entries.map (·.1) = (written.map (·.1)).eraseDups
  values : ∀ key, entries.lookup key = written.reverse.lookup key

theorem put_keys (key : String) (value : α) (es : List (String × α)) :
    (put key value es).map (·.1) =
      if key ∈ es.map (·.1) then es.map (·.1) else es.map (·.1) ++ [key] := by
  induction es with
  | nil => rfl
  | cons e es ih =>
    obtain ⟨k, v⟩ := e
    by_cases hk : k = key
    · simp [put, hk]
    · have hk' : key ≠ k := Ne.symm hk
      simp only [put, hk, if_false, List.map_cons, ih, List.mem_cons, hk', false_or]
      split <;> simp

theorem mem_of_mem_put {key : String} {value : α} {es : List (String × α)} {p : String × α}
    (h : p ∈ put key value es) : p = (key, value) ∨ p ∈ es := by
  induction es with
  | nil => exact .inl (List.mem_singleton.1 h)
  | cons e es ih =>
    obtain ⟨k, v⟩ := e
    by_cases hk : k = key
    · subst hk
      rw [put, if_pos rfl, List.mem_cons] at h
      exact h.imp_right (List.mem_cons_of_mem _)
    · rw [put, if_neg hk, List.mem_cons] at h
      rcases h with rfl | h
      · exact .inr List.mem_cons_self
      · exact (ih h).imp_right (List.mem_cons_of_mem _)

theorem ofList_concat (es : List (String × α)) (e : String × α) :
    (ofList (es ++ [e])).entries = put e.1 e.2 (ofList es).entries := by
  rw [ofList, List.foldl_append]
  rfl

theorem ofList_merges (es : List (String × α)) : Merges es (ofList es).entries := by
  induction es using List.reverseRecOn with
  | nil => exact ⟨rfl, fun _ => rfl⟩
  | append_singleton es e ih =>
    rw [ofList_concat]
    constructor
    · have mem : e.1 ∈ (ofList es).entries.map (·.1) ↔ e.1 ∈ es.map (·.1) := by
        rw [ih.keys, List.mem_eraseDups]
      rw [put_keys, List.map_append, List.eraseDups_append, ← ih.keys]
      by_cases h : e.1 ∈ es.map (·.1)
      · rw [if_pos (mem.2 h)]
        simp [List.removeAll, h]
      · rw [if_neg (mt mem.1 h)]
        simp [List.removeAll, h, List.eraseDups_cons]
    · intro key
      rw [List.reverse_append, List.reverse_singleton, List.singleton_append]
      by_cases h : key = e.1
      · rw [h, lookup_put_self, List.lookup_cons_self]
      · have he : (key == e.1) = false := beq_false_of_ne h
        rw [lookup_put_of_ne h, ih.values, List.lookup_cons, he]

theorem nodup_put {key : String} {es : List (String × α)} (h : (es.map (·.1)).Nodup) (value : α) :
    ((put key value es).map (·.1)).Nodup := by
  rw [put_keys]
  split
  · exact h
  · rename_i hk
    exact List.nodup_append.2
      ⟨h, by simp, fun a ha b hb => by
        rw [List.mem_singleton.1 hb]
        rintro rfl
        exact hk ha⟩

theorem nodup_ofList (es : List (String × α)) : ((ofList es).entries.map (·.1)).Nodup := by
  induction es using List.reverseRecOn with
  | nil => exact List.nodup_nil
  | append_singleton es e ih =>
    rw [ofList_concat]
    exact nodup_put ih e.2

theorem mem_of_mem_ofList {es : List (String × α)} {p : String × α}
    (h : p ∈ (ofList es).entries) : p ∈ es := by
  induction es using List.reverseRecOn with
  | nil => exact h
  | append_singleton es e ih =>
    rw [ofList_concat] at h
    rcases mem_of_mem_put h with rfl | h
    · simp
    · exact List.mem_append_left _ (ih h)

end Fields

def Phrase.WellFormed : Phrase → Prop
  | .expr _ e => e.WellFormed
  | .items es => ∀ e ∈ es, e.WellFormed
  | .properties ps => ∀ p ∈ ps, p.2.WellFormed
  | .names _ => True
  | .stmt inLoop s => s.WellFormed inLoop
  | .block inLoop ss => ∀ s ∈ ss, s.WellFormed inLoop
  | .branches inLoop bs => ∀ b ∈ bs, b.1.WellFormed ∧ ∀ s ∈ b.2, s.WellFormed inLoop
  | .otherwise inLoop body => ∀ s ∈ body.getD [], s.WellFormed inLoop

theorem Expr.WellFormed.parts {e : Expr} (h : e.WellFormed) : ∀ d ∈ e.parts, d.WellFormed := by
  cases h with
  | intro h _ => exact h

theorem Expr.parts_of_target? {e : Expr} {t : Target} (h : e.target? = some t) :
    t.parts = e.parts := by
  unfold Expr.target? at h
  split at h <;> cases h <;> rfl

theorem Written.wellFormed {lax : Bool} {phrase : Phrase} {ts : List Token}
    (h : Written lax phrase ts) : phrase.WellFormed := by
  induction h with
  | literal | name | dollarName | update => exact .intro (by simp [Expr.parts]) (by simp)
  | assign _ _ _ ht _ _ ihl ihv | compound _ _ _ _ ht _ _ ihl ihv =>
    refine .intro (fun d hd => ?_) (by simp)
    rcases List.mem_append.1 hd with hd | hd
    · exact ihl.parts d (Expr.parts_of_target? ht ▸ hd)
    · exact List.mem_singleton.1 hd ▸ ihv
  | unary _ _ _ _ _ ih => exact .intro (List.forall_mem_singleton.2 ih) (by simp)
  | binary _ _ _ _ _ _ ihl ihr =>
    exact .intro (List.forall_mem_cons.2 ⟨ihl, List.forall_mem_singleton.2 ihr⟩) (by simp)
  | call _ _ _ _ _ ihc iha => exact .intro (List.forall_mem_cons.2 ⟨ihc, iha⟩) (by simp)
  | member _ _ _ _ _ ih => exact .intro (List.forall_mem_singleton.2 ih) (by simp)
  | index _ _ _ _ _ iho ihi =>
    exact .intro (List.forall_mem_cons.2 ⟨iho, List.forall_mem_singleton.2 ihi⟩) (by simp)
  | array _ _ _ _ ih => exact .intro ih (by simp)
  | @object _ ps _ _ _ _ _ ih =>
    refine .intro (fun d hd => ?_) fun qs q hq => ?_
    · obtain ⟨p, hp, rfl⟩ := List.mem_map.1 hd
      exact ih p (Fields.mem_of_mem_ofList hp)
    · cases hq
      exact Fields.nodup_ofList ps
  | paren _ _ _ _ ih => exact ih
  | noItems | noProperties | noStmts | noBranches | noOtherwise => exact List.forall_mem_nil _
  | lastItem _ ih => exact List.forall_mem_singleton.2 ih
  | item _ _ _ ih ihs => exact List.forall_mem_cons.2 ⟨ih, ihs⟩
  | lastProperty _ _ _ _ ih => exact List.forall_mem_singleton.2 ih
  | property _ _ _ _ _ _ ih ihs => exact List.forall_mem_cons.2 ⟨ih, ihs⟩
  | noNames | lastName | nameList => trivial
  | @function inLoop _ _ _ _ _ _ _ _ _ _ _ _ _ _ _ _ _ _ ihb =>
    refine .intro (List.forall_mem_nil _) ?_ (by simp [Stmt.leavesLoop])
    simp only [Stmt.isLoop, Bool.or_false]
    exact ihb
  | returnNothing =>
    exact .intro (List.forall_mem_nil _) (List.forall_mem_nil _) (by simp [Stmt.leavesLoop])
  | return_ _ _ _ _ ih =>
    exact .intro (List.forall_mem_singleton.2 ih) (List.forall_mem_nil _)
      (by simp [Stmt.leavesLoop])
  | branch _ _ _ _ _ _ _ _ _ _ _ ihc ihb ihl iho =>
    refine .intro (List.forall_mem_cons.2 ⟨ihc, ?_⟩) ?_ (by simp [Stmt.leavesLoop])
    · intro e he
      obtain ⟨b, hb, rfl⟩ := List.mem_map.1 he
      exact (ihl b hb).1
    · simp only [Stmt.isLoop, Bool.or_false]
      intro t ht
      simp only [Stmt.within, Stmt.inner, List.mem_append, List.mem_flatMap] at ht
      rcases ht with (ht | ⟨b, hb, ht⟩) | ht
      · exact ihb t ht
      · exact (ihl b hb).2 t ht
      · exact iho t ht
  | while_ _ _ _ _ _ _ _ _ _ ihc ihb | for_ _ _ _ _ _ _ _ _ _ _ _ ihc ihb =>
    refine .intro (List.forall_mem_singleton.2 ihc) ?_ (by simp [Stmt.leavesLoop])
    simp only [Stmt.isLoop, Bool.or_true]
    exact ihb
  | break_ | continue_ => exact .intro (List.forall_mem_nil _) (List.forall_mem_nil _) fun _ => rfl
  | expr _ _ ih =>
    exact .intro (List.forall_mem_singleton.2 ih) (List.forall_mem_nil _)
      (by simp [Stmt.leavesLoop])
  | stmts _ _ ih ihs => exact List.forall_mem_cons.2 ⟨ih, ihs⟩
  | branches _ _ _ _ _ _ _ ihc ihb ihs => exact List.forall_mem_cons.2 ⟨⟨ihc, ihb⟩, ihs⟩
  | otherwise _ _ _ ih => exact ih

end CanvasScript
