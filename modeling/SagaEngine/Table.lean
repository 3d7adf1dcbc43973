/-! Finite maps from names, as lists of pairs in ascending order of name. -/

namespace SagaEngine

abbrev Table (α : Type) := List (String × α)

namespace Table

variable {α : Type}

def get? : Table α → String → Option α
  | [], _ => none
  | (j, b) :: t, k => if j = k then some b else get? t k

def insert : Table α → String → α → Table α
  | [], k, a => [(k, a)]
  | (j, b) :: t, k, a =>
    if j = k then (k, a) :: t
    else if k < j then (k, a) :: (j, b) :: t
    else (j, b) :: insert t k a

def erase : Table α → String → Table α
  | [], _ => []
  | (j, b) :: t, k => if j = k then erase t k else (j, b) :: erase t k

def contains (t : Table α) (k : String) : Bool := (t.get? k).isSome

def merge (t u : Table α) : Table α := u.foldl (fun t e => t.insert e.1 e.2) t

def ofList (entries : List (String × α)) : Table α := merge [] entries

@[simp] theorem get?_nil (k : String) : get? ([] : Table α) k = none := rfl

theorem get?_insert (t : Table α) (k j : String) (a : α) :
    (t.insert k a).get? j = if k = j then some a else t.get? j := by
  induction t with
  | nil => rfl
  | cons e t ih => grind [insert, get?]

theorem get?_erase (t : Table α) (k j : String) :
    (t.erase k).get? j = if k = j then none else t.get? j := by
  induction t with
  | nil => simp [erase]
  | cons e t ih => grind [erase, get?]

theorem get?_of_mem {t : Table α} (h : (t.map Prod.fst).Nodup) {k : String} {a : α}
    (he : (k, a) ∈ t) : t.get? k = some a := by
  induction t with
  | nil => cases he
  | cons e t ih =>
    obtain ⟨hhead, htail⟩ := List.nodup_cons.1 h
    rcases List.mem_cons.1 he with rfl | he
    · exact if_pos rfl
    · have hne : e.1 ≠ k := fun hk => hhead (hk ▸ List.mem_map_of_mem he)
      exact (if_neg hne).trans (ih htail he)

end Table

end SagaEngine
