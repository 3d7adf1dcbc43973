/-! Cutting text into pieces. -/

namespace SagaEngine.Text

def split (mark : Char) : List Char → List (List Char)
  | [] => [[]]
  | c :: rest =>
    if c = mark then [] :: split mark rest
    else match split mark rest with
      | [] => [[c]]
      | piece :: pieces => (c :: piece) :: pieces

theorem split_ne_nil (mark : Char) (cs : List Char) : split mark cs ≠ [] := by
  cases cs with
  | nil => simp [split]
  | cons c rest =>
    rw [split]
    split
    · simp
    · split <;> simp

theorem intercalate_split (mark : Char) (cs : List Char) : [mark].intercalate (split mark cs) = cs := by
  induction cs with
  | nil => rfl
  | cons c rest ih =>
    rw [split]
    split
    · next h =>
      subst h
      cases hs : split c rest with
      | nil => exact absurd hs (split_ne_nil c rest)
      | cons p ps => rw [hs] at ih; simp [List.intercalate, ← ih]
    · split
      · next hs => exact absurd hs (split_ne_nil mark rest)
      · next p ps hs =>
        rw [hs] at ih
        cases ps <;> simp_all [List.intercalate]

end SagaEngine.Text
