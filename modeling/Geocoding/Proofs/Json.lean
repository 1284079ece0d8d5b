import Geocoding.Proofs.Json.Numbers

/-!
# JSON, read back

What is written is read back as it was, whatever stands behind it that does not continue it. The values have to be
ones that can be written: their strings and keys are texts, and their numbers are well-formed.
-/

namespace Geocoding.Json

mutual

/-- The value can be written. -/
def WellFormed : Json → Prop
  | .null => True
  | .bool _ => True
  | .number n => n.WellFormed
  | .string s => s.isSome
  | .array items => WellFormedItems items
  | .object members => WellFormedMembers members

/-- All items can be written. -/
def WellFormedItems : List Json → Prop
  | [] => True
  | j :: js => j.WellFormed ∧ WellFormedItems js

/-- All members can be written. -/
def WellFormedMembers : List (Option String × Json) → Prop
  | [] => True
  | (key, j) :: ms => key.isSome ∧ j.WellFormed ∧ WellFormedMembers ms

end

section

variable {fuel : Nat} {s rest : Bytes}

/-! ## What a value starts with -/

/-- What is to be read starts with neither a blank nor a closing bracket or brace. -/
def Opens (s : Bytes) : Prop :=
  ∃ b bytes, s = b :: bytes ∧ isSpace b = false ∧ b ≠ 0x5D ∧ b ≠ 0x7D

theorem Opens.append (h : Opens s) : Opens (s ++ rest) := by
  obtain ⟨b, bytes, rfl, hb⟩ := h
  exact ⟨b, bytes ++ rest, rfl, hb⟩

theorem skipSpace_cons {b : UInt8} (h : isSpace b = false) (rest : Bytes) : skipSpace (b :: rest) = b :: rest := by
  simp [skipSpace, h]

theorem encode_quote (s : String) : ∃ body, Text.encode (quote s) = 0x22 :: body :=
  ⟨_, (readString_quote s []).choose_spec.1⟩

theorem encode_array (items : List Json) :
    Text.encode (render (.array items)) = 0x5B :: (Text.encode (renderItems items) ++ [0x5D]) := by
  simp only [render, Text.encode_append]
  rfl

theorem encode_object (members : List (Option String × Json)) :
    Text.encode (render (.object members)) = 0x7B :: (Text.encode (renderMembers members) ++ [0x7D]) := by
  simp only [render, Text.encode_append]
  rfl

/-- The first byte of a number is none that other values start with. -/
theorem start_of_number {b : UInt8} (h : b = 0x2D ∨ isDigit b = true) :
    isSpace b = false ∧ b ≠ 0x22 ∧ b ≠ 0x5B ∧ b ≠ 0x5D ∧ b ≠ 0x7B ∧ b ≠ 0x7D ∧ b ≠ 0x6E ∧ b ≠ 0x74 ∧
      b ≠ 0x66 := by
  obtain rfl | hdigit := h
  · decide
  · have hne : ∀ c, isDigit c = false → b ≠ c := by
      rintro c hc rfl
      rw [hdigit] at hc
      cases hc
    have hspace : isSpace b = false := by
      simp [isSpace, hne 0x20 rfl, hne 0x0A rfl, hne 0x0D rfl, hne 0x09 rfl]
    exact ⟨hspace, hne _ rfl, hne _ rfl, hne _ rfl, hne _ rfl, hne _ rfl, hne _ rfl, hne _ rfl, hne _ rfl⟩

theorem opens_render {j : Json} (h : j.WellFormed) : Opens (Text.encode j.render) := by
  cases j with
  | null => exact ⟨_, _, rfl, by decide⟩
  | bool b => cases b <;> exact ⟨_, _, rfl, by decide⟩
  | number n =>
    obtain ⟨b, bytes, hbytes, hb⟩ := Number.head_render h
    obtain ⟨hspace, -, -, hbracket, -, hbrace, -⟩ := start_of_number hb
    exact ⟨b, bytes, hbytes, hspace, hbracket, hbrace⟩
  | string s =>
    obtain ⟨body, hbody⟩ := encode_quote (s.getD "")
    exact ⟨_, body, hbody, by decide⟩
  | array items => exact ⟨_, _, encode_array items, by decide⟩
  | object members => exact ⟨_, _, encode_object members, by decide⟩

/-! ## Reading one value -/

theorem readValue_number {n : Number} (h : n.WellFormed) (hrest : Stops rest) :
    readValue (fuel + 1) (Text.encode n.render ++ rest) = some (.number n, rest) := by
  have hread := Number.readNumber_render h hrest
  obtain ⟨b, bytes, hbytes, hb⟩ := Number.head_render h
  obtain ⟨hspace, h₁, h₂, -, h₃, -, h₄, h₅, h₆⟩ := start_of_number hb
  rw [hbytes, List.cons_append] at hread ⊢
  simp [readValue, skipSpace_cons hspace, h₁, h₂, h₃, h₄, h₅, h₆, hread]

theorem readValue_string (t : String) :
    readValue (fuel + 1) (Text.encode (quote t) ++ rest) = some (.string (some t), rest) := by
  obtain ⟨body, hbody, hread⟩ := readString_quote t rest
  rw [hbody, List.cons_append, readValue, skipSpace_cons rfl]
  simp [hread]

theorem readValue_array (h : Opens s) :
    readValue (fuel + 1) (0x5B :: s) = (readItems fuel s).map fun (items, s) => (.array items, s) := by
  obtain ⟨b, bytes, rfl, hspace, hbracket, -⟩ := h
  simp [readValue, skipSpace_cons (b := 0x5B) rfl, skipSpace_cons hspace, hbracket]

theorem readValue_object (h : Opens s) :
    readValue (fuel + 1) (0x7B :: s) = (readMembers fuel s).map fun (members, s) => (.object members, s) := by
  obtain ⟨b, bytes, rfl, hspace, -, hbrace⟩ := h
  simp [readValue, skipSpace_cons (b := 0x7B) rfl, skipSpace_cons hspace, hbrace]

/-! ## Reading items and members -/

theorem readItems_last {j : Json} (h : readValue fuel s = some (j, 0x5D :: rest)) :
    readItems (fuel + 1) s = some ([j], rest) := by
  simp [readItems, h, skipSpace_cons (b := 0x5D) rfl]

theorem readItems_more {j : Json} {js : List Json} (h : readValue fuel s = some (j, 0x2C :: rest)) {rest' : Bytes}
    (hjs : readItems fuel rest = some (js, rest')) : readItems (fuel + 1) s = some (j :: js, rest') := by
  simp [readItems, h, hjs, skipSpace_cons (b := 0x2C) rfl]

theorem readMembers_last {key : String} {j : Json} (h : readValue fuel s = some (j, 0x7D :: rest)) :
    readMembers (fuel + 1) (Text.encode (quote key) ++ 0x3A :: s) = some ([(some key, j)], rest) := by
  obtain ⟨body, hbody, hread⟩ := readString_quote key (0x3A :: s)
  rw [hbody, List.cons_append, readMembers, skipSpace_cons rfl]
  simp [hread, h, skipSpace_cons (b := 0x3A) rfl, skipSpace_cons (b := 0x7D) rfl]

theorem readMembers_more {key : String} {j : Json} {ms : List (Option String × Json)}
    (h : readValue fuel s = some (j, 0x2C :: rest)) {rest' : Bytes} (hms : readMembers fuel rest = some (ms, rest')) :
    readMembers (fuel + 1) (Text.encode (quote key) ++ 0x3A :: s) = some ((some key, j) :: ms, rest') := by
  obtain ⟨body, hbody, hread⟩ := readString_quote key (0x3A :: s)
  rw [hbody, List.cons_append, readMembers, skipSpace_cons rfl]
  simp [hread, h, hms, skipSpace_cons (b := 0x3A) rfl, skipSpace_cons (b := 0x2C) rfl]

end

/-! ## Reading back -/

theorem stops_of_head {b : UInt8} (h : b = 0x2C ∨ b = 0x5D ∨ b = 0x7D) (rest : Bytes) : Stops (b :: rest) := by
  rintro _ ⟨⟩
  obtain rfl | rfl | rfl := h <;> decide

/-- Every value takes at least a byte. -/
theorem length_render_pos {j : Json} (h : j.WellFormed) : 0 < (Text.encode j.render).length := by
  obtain ⟨b, bytes, hbytes, -⟩ := opens_render h
  simp [hbytes]

theorem encode_renderItems (j j' : Json) (js : List Json) :
    Text.encode (renderItems (j :: j' :: js)) =
      Text.encode j.render ++ 0x2C :: Text.encode (renderItems (j' :: js)) := by
  simp only [renderItems, Text.encode_append, List.append_assoc]
  rfl

theorem encode_renderMember (key : String) (j : Json) :
    Text.encode (renderMembers [(some key, j)]) = Text.encode (quote key) ++ 0x3A :: Text.encode j.render := by
  simp only [renderMembers, Text.encode_append, List.append_assoc]
  rfl

theorem encode_renderMembers (key : String) (j : Json) (m : Option String × Json) (ms : List (Option String × Json)) :
    Text.encode (renderMembers ((some key, j) :: m :: ms)) =
      Text.encode (quote key) ++ 0x3A :: (Text.encode j.render ++ 0x2C :: Text.encode (renderMembers (m :: ms))) := by
  simp only [renderMembers, Text.encode_append, List.append_assoc]
  rfl

theorem opens_renderItems {j : Json} {js : List Json} (h : WellFormedItems (j :: js)) :
    Opens (Text.encode (renderItems (j :: js))) := by
  cases js with
  | nil => exact opens_render h.1
  | cons j' js =>
    rw [encode_renderItems]
    exact (opens_render h.1).append

theorem opens_renderMembers (key : String) (j : Json) (ms : List (Option String × Json)) :
    Opens (Text.encode (renderMembers ((some key, j) :: ms))) := by
  obtain ⟨body, hbody⟩ := encode_quote key
  cases ms with
  | nil =>
    rw [encode_renderMember, hbody]
    exact ⟨_, _, rfl, by decide⟩
  | cons m ms =>
    rw [encode_renderMembers, hbody]
    exact ⟨_, _, rfl, by decide⟩

/-- With so much fuel, what takes no more bytes is read back. Items and members take a step of their own. -/
structure ReadsBack (fuel : Nat) : Prop where
  value : ∀ j rest, j.WellFormed → Stops rest → (Text.encode j.render).length ≤ fuel →
    readValue fuel (Text.encode j.render ++ rest) = some (j, rest)
  items : ∀ j js rest, WellFormedItems (j :: js) → (Text.encode (renderItems (j :: js))).length < fuel →
    readItems fuel (Text.encode (renderItems (j :: js)) ++ 0x5D :: rest) = some (j :: js, rest)
  members : ∀ m ms rest, WellFormedMembers (m :: ms) → (Text.encode (renderMembers (m :: ms))).length < fuel →
    readMembers fuel (Text.encode (renderMembers (m :: ms)) ++ 0x7D :: rest) = some (m :: ms, rest)

namespace ReadsBack

variable {fuel : Nat}

theorem zero : ReadsBack 0 where
  value _ _ h _ hfuel := absurd (length_render_pos h) (Nat.not_lt.2 hfuel)
  items _ _ _ _ hfuel := absurd hfuel (Nat.not_lt_zero _)
  members _ _ _ _ hfuel := absurd hfuel (Nat.not_lt_zero _)

theorem value_succ (ih : ReadsBack fuel) {j : Json} {rest : Bytes} (h : j.WellFormed) (hrest : Stops rest)
    (hfuel : (Text.encode j.render).length ≤ fuel + 1) :
    readValue (fuel + 1) (Text.encode j.render ++ rest) = some (j, rest) := by
  -- What is inside of an array or an object is shorter than the whole, so there is fuel left for it.
  match j with
  | .null => rfl
  | .bool b => cases b <;> rfl
  | .number n => exact readValue_number h hrest
  | .string s =>
    obtain ⟨t, rfl⟩ := Option.isSome_iff_exists.1 h
    exact readValue_string t
  | .array [] => rfl
  | .array (j :: js) =>
    rw [encode_array] at hfuel ⊢
    simp only [List.length_cons, List.length_append, List.length_nil] at hfuel
    simp only [List.cons_append, List.append_assoc, List.nil_append]
    rw [readValue_array (opens_renderItems h).append, ih.items j js rest h (by omega)]
    rfl
  | .object [] => rfl
  | .object ((key, j) :: ms) =>
    obtain ⟨key, rfl⟩ := Option.isSome_iff_exists.1 h.1
    rw [encode_object] at hfuel ⊢
    simp only [List.length_cons, List.length_append, List.length_nil] at hfuel
    simp only [List.cons_append, List.append_assoc, List.nil_append]
    rw [readValue_object (opens_renderMembers key j ms).append, ih.members (some key, j) ms rest h (by omega)]
    rfl

theorem items_succ (ih : ReadsBack fuel) {j : Json} {js : List Json} {rest : Bytes} (h : WellFormedItems (j :: js))
    (hfuel : (Text.encode (renderItems (j :: js))).length < fuel + 1) :
    readItems (fuel + 1) (Text.encode (renderItems (j :: js)) ++ 0x5D :: rest) = some (j :: js, rest) := by
  cases js with
  | nil => exact readItems_last (ih.value j _ h.1 (stops_of_head (by simp) rest) (Nat.le_of_lt_succ hfuel))
  | cons j' js =>
    rw [encode_renderItems] at hfuel ⊢
    simp only [List.length_append, List.length_cons] at hfuel
    simp only [List.append_assoc, List.cons_append]
    exact readItems_more (ih.value j _ h.1 (stops_of_head (by simp) _) (by omega))
      (ih.items j' js rest h.2 (by omega))

theorem members_succ (ih : ReadsBack fuel) {m : Option String × Json} {ms : List (Option String × Json)}
    {rest : Bytes} (h : WellFormedMembers (m :: ms))
    (hfuel : (Text.encode (renderMembers (m :: ms))).length < fuel + 1) :
    readMembers (fuel + 1) (Text.encode (renderMembers (m :: ms)) ++ 0x7D :: rest) = some (m :: ms, rest) := by
  obtain ⟨key, j⟩ := m
  obtain ⟨key, rfl⟩ := Option.isSome_iff_exists.1 h.1
  cases ms with
  | nil =>
    rw [encode_renderMember] at hfuel ⊢
    simp only [List.length_append, List.length_cons] at hfuel
    simp only [List.append_assoc, List.cons_append]
    exact readMembers_last (ih.value j _ h.2.1 (stops_of_head (by simp) rest) (by omega))
  | cons m ms =>
    rw [encode_renderMembers] at hfuel ⊢
    simp only [List.length_append, List.length_cons] at hfuel
    simp only [List.append_assoc, List.cons_append]
    exact readMembers_more (ih.value j _ h.2.1 (stops_of_head (by simp) _) (by omega))
      (ih.members m ms rest h.2.2 (by omega))

end ReadsBack

/-- Any fuel is enough for a text of no more bytes. -/
theorem readsBack (fuel : Nat) : ReadsBack fuel := by
  induction fuel with
  | zero => exact .zero
  | succ fuel ih =>
    exact ⟨fun _ _ => ih.value_succ, fun _ _ _ => ih.items_succ, fun _ _ _ => ih.members_succ⟩

/-- What is written is read back. -/
theorem parse?_render {j : Json} (h : j.WellFormed) : parse? (Text.encode j.render) = some j := by
  have hread := (readsBack ((Text.encode j.render).length + 1)).value j [] h (by rintro b ⟨⟩) (Nat.le_succ _)
  rw [List.append_nil] at hread
  rw [parse?, hread]
  rfl

/-! ## Objects whose members have their texts already -/

/-- Members with texts for keys. -/
def keyed (members : List (String × Json)) : List (Option String × Json) :=
  members.map fun (key, j) => (some key, j)

theorem wellFormed_keyed {members : List (String × Json)} (h : ∀ m ∈ members, m.2.WellFormed) :
    WellFormedMembers (keyed members) := by
  induction members with
  | nil => trivial
  | cons m members ih =>
    obtain ⟨hm, hmembers⟩ := List.forall_mem_cons.1 h
    exact ⟨rfl, hm, ih hmembers⟩

theorem renderMembers_keyed (members : List (String × Json)) :
    renderMembers (keyed members) =
      String.intercalate "," (members.map fun (key, j) => quote key ++ ":" ++ j.render) := by
  induction members with
  | nil => rfl
  | cons m members ih =>
    cases members with
    | nil => simp [keyed, renderMembers]
    | cons m' members =>
      simp only [List.map_cons, String.intercalate_cons_cons] at ih ⊢
      rw [← ih]
      simp [keyed, renderMembers, String.append_assoc]

theorem objectText_render (members : List (String × Json)) :
    objectText (members.map fun (key, j) => (key, j.render)) = render (.object (keyed members)) := by
  rw [objectText, render, renderMembers_keyed, List.map_map]
  rfl

theorem printable_intercalate {separator : String} (hseparator : Printable separator) {parts : List String}
    (h : ∀ part ∈ parts, Printable part) : Printable (String.intercalate separator parts) := by
  induction parts with
  | nil => exact (by decide : Printable "")
  | cons part parts ih =>
    obtain ⟨hpart, hparts⟩ := List.forall_mem_cons.1 h
    cases parts with
    | nil => simpa using hpart
    | cons part' parts =>
      rw [String.intercalate_cons_cons]
      exact (hpart.append hseparator).append (ih hparts)

theorem printable_objectText {members : List (String × String)} (h : ∀ m ∈ members, Printable m.2) :
    Printable (objectText members) := by
  refine (Printable.append (by decide) (printable_intercalate (by decide) fun part hpart => ?_)).append (by decide)
  obtain ⟨m, hm, rfl⟩ := List.mem_map.1 hpart
  exact ((printable_quote m.1).append (by decide)).append (h m hm)

end Geocoding.Json
