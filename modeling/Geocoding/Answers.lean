import Geocoding.Resolution

/-!
# Answers to a bulk submission

The rows that a provider has answered, by the tags they were submitted with. A later answer for a tag
replaces an earlier one.
-/

namespace Geocoding

/-- Answers by tag, the latest first. -/
structure Answers where
  latest : List (String × Resolution) := []

namespace Answers

/-- No answers. -/
def empty : Answers := {}

/-- Add an answer. -/
def insert (a : Answers) (id : String) (r : Resolution) : Answers :=
  ⟨(id, r) :: a.latest⟩

/-- The answer under a tag. -/
def get? (a : Answers) (id : String) : Option Resolution :=
  a.latest.lookup id

/-- Add answers in order. -/
def insertAll (a : Answers) (rows : List (String × Resolution)) : Answers :=
  rows.foldl (fun a row => a.insert row.1 row.2) a

/-- The tags that have answers, each once, with their answers. -/
def toList (a : Answers) : List (String × Resolution) :=
  a.latest.foldr (fun row rows => row :: rows.filter (·.1 != row.1)) []

@[simp] theorem get?_empty (id : String) : empty.get? id = none := rfl

theorem get?_insert (a : Answers) (id id' : String) (r : Resolution) :
    (a.insert id r).get? id' = if id' = id then some r else a.get? id' := by
  rw [get?, insert, List.lookup_cons]
  by_cases h : id' = id
  · simp [h]
  · simp [h, beq_false_of_ne h, get?]

end Answers

end Geocoding
