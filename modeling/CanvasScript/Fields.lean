
namespace CanvasScript

/-- Keys with their values, in the order of first insertion. -/
structure Fields (α : Type) where
  entries : List (String × α)
deriving Repr

namespace Fields

variable {α : Type}

def empty : Fields α := ⟨[]⟩

instance : Inhabited (Fields α) := ⟨empty⟩

def get? (f : Fields α) (key : String) : Option α := f.entries.lookup key

def put (key : String) (value : α) : List (String × α) → List (String × α)
  | [] => [(key, value)]
  | (k, v) :: rest => if k = key then (k, value) :: rest else (k, v) :: put key value rest

def set (f : Fields α) (key : String) (value : α) : Fields α := ⟨put key value f.entries⟩

def ofList (entries : List (String × α)) : Fields α :=
  entries.foldl (fun f e => f.set e.1 e.2) empty

def keys (f : Fields α) : List String := f.entries.map (·.1)

def size (f : Fields α) : Nat := f.entries.length

theorem lookup_put_self (key : String) (value : α) (es : List (String × α)) :
    (put key value es).lookup key = some value := by
  induction es with
  | nil => simp [put]
  | cons e es ih =>
    obtain ⟨k, v⟩ := e
    by_cases h : k = key
    · simp [put, h]
    · have h' : (key == k) = false := by simp [Ne.symm h]
      simp [put, h, List.lookup_cons, h', ih]

theorem lookup_put_of_ne {key other : String} (h : other ≠ key) (value : α)
    (es : List (String × α)) : (put key value es).lookup other = es.lookup other := by
  induction es with
  | nil =>
    have h' : (other == key) = false := by simp [h]
    simp [put, List.lookup_cons, h']
  | cons e es ih =>
    obtain ⟨k, v⟩ := e
    by_cases hk : k = key
    · subst hk
      have h' : (other == k) = false := by simp [h]
      simp [put, List.lookup_cons, h']
    · simp only [put, hk, if_false, List.lookup_cons, ih]

theorem get?_set_self (f : Fields α) (key : String) (value : α) :
    (f.set key value).get? key = some value := lookup_put_self key value f.entries

theorem get?_set_of_ne (f : Fields α) {key other : String} (h : other ≠ key) (value : α) :
    (f.set key value).get? other = f.get? other := lookup_put_of_ne h value f.entries

end Fields

end CanvasScript
