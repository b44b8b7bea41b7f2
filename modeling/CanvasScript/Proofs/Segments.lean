import CanvasScript.Proofs.Termination.Markers

namespace CanvasScript

def Segment.written : Segment → List Char
  | text s => s.toList
  | expr source => '$' :: '{' :: (source.toList ++ ['}'])

def Segment.IsText : Segment → Prop
  | text _ => True
  | expr _ => False

namespace Marker

def Opens (cs : List Char) : Prop :=
  ∃ rest, cs = '$' :: '{' :: rest ∧ '}' ∈ rest.takeWhile (· ≠ '\n')

def Plain (inner : List Char) : Prop := ∀ c ∈ inner, c ≠ '}' ∧ c ≠ '\n'

theorem not_opens_nil : ¬ Opens [] := by
  rintro ⟨rest, h, -⟩
  cases h

theorem Opens.append {cs : List Char} (h : Opens cs) (ds : List Char) : Opens (cs ++ ds) := by
  obtain ⟨rest, rfl, hm⟩ := h
  refine ⟨rest ++ ds, rfl, ?_⟩
  rw [List.takeWhile_append]
  split
  · exact List.mem_append_left _ (List.takeWhile_sublist _ |>.subset hm)
  · exact hm

theorem opens_iff {cs : List Char} :
    Opens cs ↔ ∃ inner after, Plain inner ∧ cs = '$' :: '{' :: (inner ++ '}' :: after) := by
  constructor
  · rintro ⟨rest, rfl, hm⟩
    obtain ⟨inner, line, hl, first⟩ := List.eq_append_cons_of_mem hm
    refine ⟨inner, line ++ rest.dropWhile (· ≠ '\n'), fun c hc => ⟨?_, ?_⟩, ?_⟩
    · rintro rfl
      exact first hc
    · have before : c ∈ rest.takeWhile (· ≠ '\n') := hl ▸ List.mem_append_left _ hc
      simpa using List.all_eq_true.1 List.all_takeWhile c before
    · rw [← List.cons_append (a := '}'), ← List.append_assoc, ← hl, List.takeWhile_append_dropWhile]
  · rintro ⟨inner, after, plain, rfl⟩
    refine ⟨_, rfl, ?_⟩
    rw [List.takeWhile_append_of_pos fun c hc => by simp [(plain c hc).2]]
    simp

theorem body?_of_plain {inner : List Char} (h : Plain inner) (after : List Char) :
    body? ('{' :: (inner ++ '}' :: after)) = some inner := by
  have taken : (inner ++ '}' :: after).takeWhile (fun c => c ≠ '}' && c ≠ '\n') = inner := by
    rw [List.takeWhile_append_of_pos fun c hc => by simp [h c hc]]
    simp
  simp only [body?, taken, List.drop_left, List.head?_cons, if_true]

theorem opens_of_body? {rest inner : List Char} (h : body? rest = some inner) :
    Opens ('$' :: rest) := by
  refine opens_iff.2 ⟨inner, ?_⟩
  have plain := plain_of_body? h
  unfold body? at h
  split at h
  · rename_i rest
    dsimp only at h
    split at h <;> cases h
    rename_i brace
    obtain ⟨after, ha⟩ := List.head?_eq_some_iff.1 brace
    refine ⟨after, plain, ?_⟩
    rw [← ha]
    rw [List.prefix_iff_eq_append.1 (List.takeWhile_prefix _)]
  · cases h

theorem segmentsFrom_skip (skip : Nat) (cs : List Char) :
    segmentsFrom skip [] cs = segmentsFrom 0 [] (cs.drop skip) := by
  induction cs generalizing skip with
  | nil =>
    rw [List.drop_nil]
    rfl
  | cons c rest ih =>
    cases skip with
    | zero => rfl
    | succ skip => exact ih skip

theorem segmentsFrom_marker {inner : List Char} (h : Plain inner) (gathered after : List Char) :
    segmentsFrom 0 gathered ('$' :: '{' :: (inner ++ '}' :: after)) =
      flush gathered ++ .expr (String.ofList inner) :: segmentsFrom 0 [] after := by
  have rest : ('{' :: (inner ++ '}' :: after)).drop (inner.length + 2) = after := by
    rw [List.drop_succ_cons, ← List.drop_drop, List.drop_left]
    rfl
  rw [segmentsFrom, if_pos rfl, body?_of_plain h]
  dsimp only
  rw [segmentsFrom_skip, rest]

theorem segmentsFrom_cons {c : Char} {rest : List Char} (h : ¬ Opens (c :: rest))
    (gathered : List Char) :
    segmentsFrom 0 gathered (c :: rest) = segmentsFrom 0 (c :: gathered) rest := by
  rw [segmentsFrom]
  split
  · rename_i inner found
    split at found
    · rename_i dollar
      exact absurd (opens_of_body? found) (dollar ▸ h)
    · cases found
  · rfl

theorem segmentsFrom_append {cs ds : List Char}
    (h : ∀ j < cs.length, ¬ Opens ((cs ++ ds).drop j)) (gathered : List Char) :
    segmentsFrom 0 gathered (cs ++ ds) = segmentsFrom 0 (cs.reverse ++ gathered) ds := by
  induction cs generalizing gathered with
  | nil => rfl
  | cons c rest ih =>
    have head : ¬ Opens (c :: (rest ++ ds)) := h 0 (Nat.zero_lt_succ _)
    have tail : ∀ j < rest.length, ¬ Opens ((rest ++ ds).drop j) := fun j hj =>
      h (j + 1) (Nat.succ_lt_succ hj)
    rw [List.cons_append, segmentsFrom_cons head, ih tail]
    simp

theorem segmentsFrom_of_not_opens {cs : List Char} (h : ∀ j, ¬ Opens (cs.drop j))
    (gathered : List Char) : segmentsFrom 0 gathered cs = flush (cs.reverse ++ gathered) := by
  have gathering : segmentsFrom 0 gathered (cs ++ []) = _ :=
    segmentsFrom_append (fun j _ => by simpa using h j) gathered
  rwa [List.append_nil, segmentsFrom] at gathering

inductive Parted : List Char → List Segment → Prop
  | rest {cs : List Char} : (∀ j, ¬ Opens (cs.drop j)) → Parted cs (flush cs.reverse)
  | marker {before inner after : List Char} {segments : List Segment} :
      (∀ j < before.length,
        ¬ Opens ((before ++ '$' :: '{' :: (inner ++ '}' :: after)).drop j)) →
      Plain inner → Parted after segments →
      Parted (before ++ '$' :: '{' :: (inner ++ '}' :: after))
        (flush before.reverse ++ .expr (String.ofList inner) :: segments)

theorem segmentsFrom_parted (gathered cs : List Char)
    (h : ∀ j < gathered.length, ¬ Opens ((gathered.reverse ++ cs).drop j)) :
    Parted (gathered.reverse ++ cs) (segmentsFrom 0 gathered cs) := by
  by_cases opens : Opens cs
  · obtain ⟨inner, after, plain, rfl⟩ := opens_iff.1 opens
    rw [segmentsFrom_marker plain]
    have parted := segmentsFrom_parted [] after fun j hj => nomatch hj
    have whole : Parted (gathered.reverse ++ '$' :: '{' :: (inner ++ '}' :: after))
        (flush gathered.reverse.reverse ++ _) := .marker (by simpa using h) plain parted
    rwa [List.reverse_reverse] at whole
  · cases cs with
    | nil =>
      have none (j : Nat) : ¬ Opens (gathered.reverse.drop j) := by
        by_cases hj : j < gathered.length
        · simpa using h j hj
        · rw [List.drop_eq_nil_of_le (by simpa using Nat.not_lt.1 hj)]
          exact not_opens_nil
      simpa [segmentsFrom] using Parted.rest none
    | cons c rest =>
      rw [segmentsFrom_cons opens]
      have parted := segmentsFrom_parted (c :: gathered) rest fun j hj => ?_
      · simpa using parted
      · rcases Nat.lt_succ_iff_lt_or_eq.1 hj with hj | rfl
        · simpa using h j hj
        · simpa using opens
termination_by cs.length
decreasing_by all_goals simp_all <;> omega

theorem segments_parted (s : String) : Parted s.toList (segments s) :=
  segmentsFrom_parted [] s.toList fun _ hj => nomatch hj

section Flush

theorem flush_eq (gathered : List Char) :
    gathered = [] ∧ flush gathered = [] ∨
      gathered ≠ [] ∧ flush gathered = [.text (String.ofList gathered.reverse)] := by
  cases gathered with
  | nil => exact .inl ⟨rfl, rfl⟩
  | cons c rest => exact .inr ⟨List.cons_ne_nil c rest, rfl⟩

theorem written_flush (gathered : List Char) :
    (flush gathered).flatMap Segment.written = gathered.reverse := by
  rcases flush_eq gathered with ⟨rfl, h⟩ | ⟨-, h⟩ <;> simp [h, Segment.written]

theorem eq_of_mem_flush {t : String} {gathered : List Char} (h : .text t ∈ flush gathered) :
    gathered ≠ [] ∧ t = String.ofList gathered.reverse := by
  rcases flush_eq gathered with ⟨-, he⟩ | ⟨nonempty, he⟩ <;> rw [he] at h
  · cases h
  · cases List.mem_singleton.1 h
    exact ⟨nonempty, rfl⟩

end Flush

/-- Of the segments of a text the next one begins at `here`, and the last marker before it ended at
`free`. Each marker still to come stands at the first place from `free` on at which one begins;
after the last marker none begins. -/
def Leftmost (cs : List Char) : Nat → Nat → List Segment → Prop
  | free, _, [] => ∀ j, free ≤ j → ¬ Opens (cs.drop j)
  | free, here, .text t :: rest => Leftmost cs free (here + t.length) rest
  | free, here, .expr source :: rest =>
    Opens (cs.drop here) ∧ (∀ j, free ≤ j → j < here → ¬ Opens (cs.drop j)) ∧
      Leftmost cs (here + source.length + 3) (here + source.length + 3) rest

theorem leftmost_flush {cs : List Char} {free here : Nat} (gathered : List Char)
    (rest : List Segment) :
    Leftmost cs free here (flush gathered ++ rest) ↔
      Leftmost cs free (here + gathered.length) rest := by
  rcases flush_eq gathered with ⟨rfl, h⟩ | ⟨-, h⟩ <;> simp [h, Leftmost]

namespace Parted

variable {cs : List Char} {segments : List Segment}

theorem written (h : Parted cs segments) : segments.flatMap Segment.written = cs := by
  induction h with
  | rest => rw [written_flush, List.reverse_reverse]
  | marker _ _ _ ih => simp [written_flush, ih, Segment.written]

theorem text_closed {t : String} (h : Parted cs segments) (ht : .text t ∈ segments) :
    t ≠ "" ∧ ∀ j, ¬ Opens (t.toList.drop j) := by
  have nonempty {gathered : List Char} (hm : .text t ∈ flush gathered) : t ≠ "" := by
    obtain ⟨nonempty, rfl⟩ := eq_of_mem_flush hm
    simpa [String.ofList_eq_empty_iff] using nonempty
  induction h with
  | rest closed =>
    refine ⟨nonempty ht, fun j => ?_⟩
    simpa [(eq_of_mem_flush ht).2] using closed j
  | @marker before inner after _ closed _ _ ih =>
    rcases List.mem_append.1 ht with hm | hm
    · refine ⟨nonempty hm, fun j opens => ?_⟩
      rw [(eq_of_mem_flush hm).2, List.reverse_reverse, String.toList_ofList] at opens
      by_cases hj : j < before.length
      · have opens := opens.append ('$' :: '{' :: (inner ++ '}' :: after))
        rw [← List.drop_append_of_le_length (Nat.le_of_lt hj)] at opens
        exact closed j hj opens
      · rw [List.drop_eq_nil_of_le (Nat.not_lt.1 hj)] at opens
        exact not_opens_nil opens
    · exact ih (List.mem_of_ne_of_mem (by simp) hm)

theorem apart (h : Parted cs segments) :
    segments.IsChain fun a b => ¬ (a.IsText ∧ b.IsText) := by
  induction h with
  | @rest cs =>
    rcases flush_eq cs.reverse with ⟨-, he⟩ | ⟨-, he⟩ <;> simp [he]
  | @marker before _ _ segments _ _ _ ih =>
    have chain (source : String) :
        (.expr source :: segments).IsChain fun a b => ¬ (a.IsText ∧ b.IsText) := by
      cases segments with
      | nil => exact .singleton _
      | cons s rest => exact .cons_cons (fun h => h.1) ih
    rcases flush_eq before.reverse with ⟨-, he⟩ | ⟨-, he⟩ <;> rw [he]
    · exact chain _
    · exact .cons_cons (fun h => h.2) (chain _)

theorem closed_of_no_expr (h : Parted cs segments) (none : ∀ source, .expr source ∉ segments)
    (j : Nat) : ¬ Opens (cs.drop j) := by
  cases h with
  | rest closed => exact closed j
  | marker => exact absurd (List.mem_append_right _ List.mem_cons_self) (none _)

theorem leftmost (h : Parted cs segments) (done : List Char) :
    Leftmost (done ++ cs) done.length done.length segments := by
  induction h generalizing done with
  | @rest cs none =>
    rw [← List.append_nil (flush cs.reverse), leftmost_flush]
    intro j hj
    obtain ⟨k, rfl⟩ := Nat.exists_eq_add_of_le hj
    simpa using none k
  | @marker before inner after segments none plain _ ih =>
    rw [leftmost_flush]
    refine ⟨?_, fun j hj hb => ?_, ?_⟩
    · simpa using opens_iff.2 ⟨inner, after, plain, rfl⟩
    · obtain ⟨k, rfl⟩ := Nat.exists_eq_add_of_le hj
      simpa using none k (by simpa using hb)
    · have := ih (done ++ before ++ '$' :: '{' :: (inner ++ ['}']))
      simpa [Nat.add_assoc] using this

end Parted

end Marker

end CanvasScript
