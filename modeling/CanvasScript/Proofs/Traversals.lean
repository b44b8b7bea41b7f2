import Mathlib

namespace CanvasScript

variable {α : Type}

section Unopened

variable [DecidableEq α] {all : Finset α} {path : List α} {a : α}

def unopened (all : Finset α) (path : List α) : Nat := (all \ path.toFinset).card

theorem unopened_le (all : Finset α) (path : List α) : unopened all path ≤ all.card :=
  Finset.card_le_card Finset.sdiff_subset

theorem unopened_cons_lt (ha : a ∈ all) (hp : a ∉ path) :
    unopened all (a :: path) < unopened all path := by
  have closed : a ∈ all \ path.toFinset := by simp [ha, hp]
  have erased : all \ (a :: path).toFinset = (all \ path.toFinset).erase a := by
    rw [List.toFinset_cons, Finset.sdiff_insert]
  rw [unopened, erased]
  exact Finset.card_erase_lt_of_mem closed

end Unopened

inductive Route (edge : α → α → Prop) (path : List α) : α → α → Prop
  | here {a : α} : a ∉ path → Route edge path a a
  | step {a b c : α} : a ∉ path → edge a b → Route edge path b c → Route edge path a c

namespace Route

variable {edge : α → α → Prop} {path : List α} {a b c : α}

theorem ofReflTransGen (h : Relation.ReflTransGen edge a b) : Route edge [] a b := by
  induction h using Relation.ReflTransGen.head_induction_on with
  | refl => exact .here List.not_mem_nil
  | head first _ ih => exact .step List.not_mem_nil first ih

theorem leave (h : Route edge path a c) (hb : b ≠ c) :
    Route edge (b :: path) a c ∨ ∃ d, edge b d ∧ Route edge (b :: path) d c := by
  induction h with
  | here hp => exact .inl (.here (by simp [hp, hb.symm]))
  | @step a d c hp first _ ih =>
    rcases ih hb with rest | later
    · by_cases same : a = b
      · exact .inr ⟨d, same ▸ first, rest⟩
      · exact .inl (.step (by simp [hp, same]) first rest)
    · exact .inr later

end Route

section Traversals

variable {α β ε σ : Type} {l : List α}

theorem mapM_ok {f : α → Except ε β} {g : α → β} (hf : ∀ a ∈ l, f a = .ok (g a)) :
    l.mapM f = .ok (l.map g) := by
  induction l with
  | nil => rfl
  | cons a l ih =>
    rw [List.mapM_cons, hf a List.mem_cons_self, ih fun b hb => hf b (List.mem_cons_of_mem _ hb)]
    rfl

theorem ok_of_mapM {f : α → Except ε β} {bs : List β} (h : l.mapM f = .ok bs) :
    ∀ a ∈ l, ∃ b, f a = .ok b := by
  induction l generalizing bs with
  | nil => simp
  | cons a l ih =>
    rw [List.mapM_cons] at h
    cases ha : f a with
    | error e => rw [ha] at h; cases h
    | ok b =>
      rw [ha] at h
      cases hl : l.mapM f with
      | error e => rw [hl] at h; cases h
      | ok cs =>
        intro c hc
        rcases List.mem_cons.1 hc with rfl | hc
        · exact ⟨b, ha⟩
        · exact ih hl c hc

theorem error_of_mapM {f : α → Except ε β} {e : ε} (h : l.mapM f = .error e) :
    ∃ a ∈ l, f a = .error e := by
  induction l with
  | nil => cases h
  | cons a l ih =>
    rw [List.mapM_cons] at h
    cases ha : f a with
    | error e' =>
      rw [ha] at h
      cases h
      exact ⟨a, List.mem_cons_self, ha⟩
    | ok b =>
      rw [ha] at h
      cases hl : l.mapM f with
      | error e' =>
        rw [hl] at h
        cases h
        obtain ⟨c, hc, he⟩ := ih hl
        exact ⟨c, List.mem_cons_of_mem _ hc, he⟩
      | ok cs => rw [hl] at h; cases h

theorem mapM_map_zipWith {γ : Type} (f : β → Except ε γ) (p : α → β) {δ : Type}
    (k : α → γ → δ) (l : List α) :
    l.mapM (fun a => (f (p a)).map (k a)) = ((l.map p).mapM f).map (List.zipWith k l) := by
  induction l with
  | nil => rfl
  | cons a l ih =>
    rw [List.mapM_cons, List.map_cons, List.mapM_cons, ih]
    cases f (p a) with
    | error e => rfl
    | ok c => cases (l.map p).mapM f <;> rfl

theorem mapM_run_kept {f : α → StateT σ Option β} {g : α → β} {s : σ}
    (hf : ∀ a ∈ l, (f a).run s = some (g a, s)) : (l.mapM f).run s = some (l.map g, s) := by
  induction l with
  | nil => rfl
  | cons a l ih =>
    have first : (f a).run s = some (g a, s) := hf a List.mem_cons_self
    have rest := ih fun b hb => hf b (List.mem_cons_of_mem _ hb)
    simp [List.mapM_cons, StateT.run_bind, first, rest]

theorem mapM_run_agrees {f : α → ExceptT ε (StateT σ Option) β} {g : α → Except ε β} {s : σ}
    (hf : ∀ a ∈ l, ∃ t, (f a).run.run s = some (g a, t) ∧ ∀ b, g a = .ok b → t = s) :
    ∃ t, (l.mapM f).run.run s = some (l.mapM g, t) ∧ ∀ bs, l.mapM g = .ok bs → t = s := by
  induction l with
  | nil => exact ⟨s, rfl, fun _ _ => rfl⟩
  | cons a l ih =>
    obtain ⟨t, first, kept⟩ := hf a List.mem_cons_self
    rw [List.mapM_cons, List.mapM_cons, ExceptT.run_bind, StateT.run_bind, first]
    cases ha : g a with
    | error e => exact ⟨t, rfl, fun bs h => by cases h⟩
    | ok b =>
      obtain rfl := kept b ha
      obtain ⟨u, rest, keptRest⟩ := ih fun c hc => hf c (List.mem_cons_of_mem _ hc)
      show ∃ t', (l.mapM f >>= fun bs => pure (b :: bs)).run.run t = some (_, t') ∧ _
      rw [ExceptT.run_bind, StateT.run_bind, rest]
      cases hl : l.mapM g with
      | error e => exact ⟨u, rfl, fun bs h => by cases h⟩
      | ok bs => exact ⟨u, rfl, fun _ _ => keptRest bs hl⟩

end Traversals

end CanvasScript
