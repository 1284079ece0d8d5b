import Geocoding.Cache.TableName
import Geocoding.Proofs.Trimming

/-!
# The grammar of table names

Which texts name a table, said without the reader: an identifier, or two of them joined by a point. The reader takes
exactly these, with any blanks around them, so what it hands on to the statements has no character in it that could
end a name and begin something else.
-/

namespace Geocoding.Cache

/-! ## Grammar -/

/-- An ASCII letter. -/
def Letter (c : Char) : Prop :=
  'a' ≤ c ∧ c ≤ 'z' ∨ 'A' ≤ c ∧ c ≤ 'Z'

/-- An ASCII digit. -/
def Digit (c : Char) : Prop :=
  '0' ≤ c ∧ c ≤ '9'

/-- A character that names are made of. -/
def Plain (c : Char) : Prop :=
  Letter c ∨ Digit c ∨ c = '_'

/-- A letter or an underscore with up to 62 letters, digits and underscores behind it. -/
inductive Identifier : List Char → Prop
  | intro {c : Char} {s : List Char} (first : Letter c ∨ c = '_') (rest : ∀ d ∈ s, Plain d)
      (short : s.length ≤ 62) : Identifier (c :: s)

/-- An identifier, or two joined by a point. -/
inductive NamesTable : List Char → Prop
  | plain {table : List Char} (h : Identifier table) : NamesTable table
  | qualified {schema table : List Char} (hschema : Identifier schema) (htable : Identifier table) :
      NamesTable (schema ++ '.' :: table)

/-! ## The reader follows the grammar -/

theorem isAlpha_iff {c : Char} : c.isAlpha = true ↔ Letter c := by
  have hread : c.isAlpha = (decide ('A' ≤ c ∧ c ≤ 'Z') || (decide ('a' ≤ c) && decide (c ≤ 'z'))) := rfl
  simp [hread, Letter, or_comm]

theorem isDigit_iff {c : Char} : c.isDigit = true ↔ Digit c := by
  simp [Char.isDigit, Digit, Char.le_def]

theorem startsIdentifier_iff {c : Char} : startsIdentifier c = true ↔ Letter c ∨ c = '_' := by
  simp [startsIdentifier, isAlpha_iff]

theorem continuesIdentifier_iff {c : Char} : continuesIdentifier c = true ↔ Plain c := by
  simp [continuesIdentifier, Char.isAlphanum, isAlpha_iff, isDigit_iff, Plain, or_assoc]

theorem isIdentifier_iff {s : List Char} : isIdentifier s = true ↔ Identifier s := by
  cases s with
  | nil => exact iff_of_false Bool.false_ne_true nofun
  | cons c s =>
    have hread : isIdentifier (c :: s) = true ↔
        ((Letter c ∨ c = '_') ∧ s.length < maxIdentifierLength) ∧ ∀ d ∈ s, Plain d := by
      simp [isIdentifier, startsIdentifier_iff, continuesIdentifier_iff]
    rw [hread]
    constructor
    · rintro ⟨⟨hfirst, hshort⟩, hrest⟩
      exact .intro hfirst hrest (Nat.le_of_lt_succ hshort)
    · rintro (⟨hfirst, hrest, hshort⟩)
      exact ⟨⟨hfirst, Nat.lt_succ_of_le hshort⟩, hrest⟩

theorem Identifier.plain {s : List Char} (h : Identifier s) : ∀ c ∈ s, Plain c := by
  cases h with
  | intro first rest short =>
    refine List.forall_mem_cons.2 ⟨?_, rest⟩
    exact first.imp_right .inr

theorem not_plain_point : ¬ Plain '.' := by
  rw [← continuesIdentifier_iff]
  decide

theorem Identifier.point_not_mem {s : List Char} (h : Identifier s) : '.' ∉ s :=
  fun hmem => not_plain_point (h.plain '.' hmem)

/-- Cutting a text at its points finds the identifiers that it is made of. -/
theorem isTableName_iff {s : List Char} : isTableName s = true ↔ NamesTable s := by
  have hread : isTableName s = true ↔ (s.splitOn '.').length ≤ 2 ∧ ∀ part ∈ s.splitOn '.', Identifier part := by
    simp [isTableName, isIdentifier_iff]
  rw [hread]
  constructor
  · rintro ⟨hlength, hparts⟩
    have hjoin : ['.'].intercalate (s.splitOn '.') = s := List.intercalate_splitOn '.'
    -- At most one point means one part or two.
    match hsplit : s.splitOn '.' with
    | [] => exact absurd hsplit (List.splitOn_ne_nil _ _)
    | [table] =>
      obtain rfl : table = s := by simpa [hsplit, List.intercalate] using hjoin
      exact .plain (hparts table (by simp [hsplit]))
    | [schema, table] =>
      obtain rfl : schema ++ '.' :: table = s := by simpa [hsplit, List.intercalate] using hjoin
      exact .qualified (hparts schema (by simp [hsplit])) (hparts table (by simp [hsplit]))
    | _ :: _ :: _ :: _ => simp [hsplit] at hlength
  · intro h
    cases h with
    | plain h =>
      rw [List.splitOn_eq_singleton h.point_not_mem]
      simpa using h
    | qualified hschema htable =>
      -- No identifier has a point, so the text is cut where it was put together.
      rw [List.splitOn_append_cons_self_of_not_mem hschema.point_not_mem,
        List.splitOn_eq_singleton htable.point_not_mem]
      simpa using ⟨hschema, htable⟩

/-! ## What names are made of -/

theorem NamesTable.plain_or_point {s : List Char} (h : NamesTable s) : ∀ c ∈ s, Plain c ∨ c = '.' := by
  intro c hc
  cases h with
  | plain h => exact .inl (h.plain c hc)
  | qualified hschema htable =>
    rcases List.mem_append.1 hc with hc | hc
    · exact .inl (hschema.plain c hc)
    · exact (List.mem_cons.1 hc).symm.imp_left (htable.plain c)

theorem NamesTable.count_point_le {s : List Char} (h : NamesTable s) : s.count '.' ≤ 1 := by
  cases h with
  | plain h =>
    rw [List.count_eq_zero.2 h.point_not_mem]
    exact Nat.zero_le 1
  | qualified hschema htable =>
    rw [List.count_append, List.count_cons_self, List.count_eq_zero.2 hschema.point_not_mem,
      List.count_eq_zero.2 htable.point_not_mem]

namespace TableName

/-- What is said of a text that is no name. -/
def refusal (s : String) : Error :=
  .config (s!"invalid table name '{Text.trim s}': " ++ "expected [schema.]table with letters, digits and underscores")

theorem parse_eq (s : String) :
    parse s = if h : isTableName (Text.trim s).toList = true then .ok ⟨Text.trim s, h⟩ else .error (refusal s) := rfl

/-- A name is read from every text that it is left of by trimming. -/
theorem parse_eq_ok_iff {s : String} {name : TableName} : parse s = .ok name ↔ name.text = Text.trim s := by
  obtain ⟨text, hname⟩ := name
  rw [parse_eq]
  split
  · simp [eq_comm]
  · next hnot =>
    refine iff_of_false nofun ?_
    rintro rfl
    exact hnot hname

theorem exists_parse_eq_ok_iff {s : String} :
    (∃ name, parse s = .ok name) ↔ NamesTable (Text.trim s).toList := by
  rw [← isTableName_iff]
  constructor
  · rintro ⟨name, h⟩
    rw [← parse_eq_ok_iff.1 h]
    exact name.wellFormed
  · exact fun h => ⟨⟨Text.trim s, h⟩, parse_eq_ok_iff.2 rfl⟩

theorem parse_eq_error_iff {s : String} {e : Error} :
    parse s = .error e ↔ e = refusal s ∧ ¬ NamesTable (Text.trim s).toList := by
  rw [← isTableName_iff, parse_eq]
  split
  · next h => exact iff_of_false nofun fun hnot => hnot.2 h
  · next h => simp [h, refusal, eq_comm]

/-- A text names a table if it is an identifier or two joined by a point, up to blanks around it, and any other text
is refused. The name is written as the text without these blanks, in letters, digits, underscores and one point at
most, and it is read back as the same name. -/
theorem parse_follows_grammar (s : String) :
    ((∃ name, parse s = .ok name) ↔ NamesTable (Text.trim s).toList) ∧
    (parse s = .error (refusal s) ↔ ¬ NamesTable (Text.trim s).toList) ∧
    ∀ name, parse s = .ok name →
      name.text = Text.trim s ∧ toString name = Text.trim s ∧
      (∀ c ∈ (toString name).toList, (Letter c ∨ Digit c ∨ c = '_') ∨ c = '.') ∧
      (toString name).toList.count '.' ≤ 1 ∧
      parse name.text = .ok name ∧ parse (toString name) = .ok name := by
  refine ⟨exists_parse_eq_ok_iff, parse_eq_error_iff.trans (and_iff_right rfl), ?_⟩
  intro name hname
  have htext : name.text = Text.trim s := parse_eq_ok_iff.1 hname
  have htable : NamesTable name.text.toList := isTableName_iff.1 name.wellFormed
  have hback : parse name.text = .ok name := by
    rw [parse_eq_ok_iff, htext, Text.trim_trim]
  exact ⟨htext, htext, htable.plain_or_point, htable.count_point_le, hback, hback⟩

/-- A qualified name between blanks is read, and a statement is not. -/
theorem parse_follows_grammar_staging :
    parse "cache; DROP TABLE users" = .error (refusal "cache; DROP TABLE users") ∧
    ∃ name, parse "\u2003_staging.Cache2\n" = .ok name ∧ name.text = "_staging.Cache2" ∧
      parse name.text = .ok name ∧ parse (toString name) = .ok name := by
  have hdrop : ¬ NamesTable (Text.trim "cache; DROP TABLE users").toList := by
    rw [← isTableName_iff]
    decide
  have hstaging : NamesTable (Text.trim "\u2003_staging.Cache2\n").toList := by
    rw [← isTableName_iff]
    decide
  obtain ⟨name, hname⟩ := (parse_follows_grammar _).1.2 hstaging
  obtain ⟨htext, -, -, -, hback, hback'⟩ := (parse_follows_grammar _).2.2 name hname
  have htrim : Text.trim "\u2003_staging.Cache2\n" = "_staging.Cache2" := by decide
  exact ⟨(parse_follows_grammar _).2.1.2 hdrop, name, hname, htext.trans htrim, hback, hback'⟩

end TableName

end Geocoding.Cache
