import Geocoding.Setup

/-!
# The Census limit

A batch of the Census geocoder is refused for its size only if it is too large. The refusal is told from the
other failures of a batch by its text, so the texts have to be compared; of a status line that a server makes
up, the part in front of it is enough.
-/

namespace Geocoding

namespace Program

variable {I J : Interface} {α β σ : Type}

/-- Whatever the replies are, the outcome of a program is one of those. -/
def Always (Q : α → Prop) : Program I α → Prop
  | done a => Q a
  | look next => ∀ fired, (next fired).Always Q
  | call _ next => ∀ reply, (next reply).Always Q

variable {Q : α → Prop} {p : Program I α}

theorem Always.bind {Q' : β → Prop} {f : α → Program I β} (h : p.Always Q)
    (hf : ∀ a, Q a → (f a).Always Q') : (p.bind f).Always Q' := by
  induction p with
  | done a => exact hf a h
  | look next ih =>
    intro fired
    exact ih fired (h fired)
  | call c next ih =>
    intro reply
    exact ih reply (h reply)

theorem always_true (p : Program I α) : p.Always fun _ => True := by
  induction p with
  | done a => trivial
  | look next ih => exact ih
  | call c next ih => exact ih

theorem Always.through {carry : (c : I.Call) → Program J (I.Reply c)} (h : p.Always Q) :
    (p.through carry).Always Q := by
  induction p with
  | done a => exact h
  | look next ih =>
    intro fired
    exact ih fired (h fired)
  | call c next ih => exact (always_true (carry c)).bind fun reply _ => ih reply (h reply)

theorem Always.run (h : p.Always Q) (w : World I σ) (s : σ) : ∀ a, (p.run w s).1 = some a → Q a := by
  induction p generalizing s with
  | done a =>
    rintro _ ⟨⟩
    exact h
  | look next ih => exact ih _ (h _) s
  | call c next ih =>
    intro a
    unfold Program.run
    split
    next reply s' _ => exact ih reply (h reply) s' a
    next =>
      intro h
      cases h

end Program

namespace Census

theorem getElem?_append_text {s t : String} {i : Nat} (hi : i < s.toList.length) :
    (s ++ t).toList[i]? = s.toList[i]? := by
  rw [String.toList_append, List.getElem?_append_left hi]

theorem oversized_eq (n : Nat) :
    oversized n = .census ("batch of " ++ (n.repr ++ " rows exceeds the " ++ maxRows.repr ++ " row limit")) := by
  simp [oversized, String.append_assoc]
  rfl

/-- The text of the refusal has an `o` where those of other failures have none. -/
theorem ne_oversized {text : String} {c : Char} (n : Nat) (h : text.toList[6]? = some c) (hc : c ≠ 'o') :
    Error.census text ≠ oversized n := by
  intro heq
  rw [oversized_eq, Error.census.injEq] at heq
  rw [heq, getElem?_append_text (by decide)] at h
  exact hc (Option.some.inj h).symm

theorem batchOutcome_ne_oversized (reply : Except Error Http.Response) (n : Nat) :
    batchOutcome reply ≠ .error (oversized n) := by
  intro h
  unfold batchOutcome at h
  split at h
  -- Each failure has a text of its own; its seventh character tells it from the refusal.
  · exact ne_oversized n (c := 'H') (by decide) (by decide) (Except.error.inj h)
  · split at h
    next response _ =>
      refine ne_oversized n (c := ' ') ?_ (by decide) (Except.error.inj h)
      -- The status and the quoted body can be anything, but they come too late in the text to matter.
      have htext : s!"Census batch returned {response.status}: {response.excerpt}" =
          "Census batch returned " ++ (response.status.repr ++ ": " ++ response.excerpt) := by
        simp [String.append_assoc]
        rfl
      rw [htext, getElem?_append_text (by decide)]
      decide
    · split at h
      · cases h
      · exact ne_oversized n (c := 'b') (by decide) (by decide) (Except.error.inj h)

theorem submit_ne_oversized (client : Client) {rows : List BatchRow} (h : rows.length ≤ maxRows) (n : Nat) :
    (client.submit rows).Always (· ≠ .error (oversized n)) := by
  unfold Client.submit
  split
  · rintro ⟨⟩
  · rw [if_neg (by omega)]
    intro fired
    cases fired with
    | true => rintro ⟨⟩
    | false =>
      intro reply
      exact batchOutcome_ne_oversized reply n

/-- Addresses that fit into a batch are not refused for their number: the blank ones do not go into it. -/
theorem geocodeBulk_ne_oversized (client : Client) {addresses : List Address}
    (h : addresses.length ≤ maxRows) (n : Nat) :
    (client.geocodeBulk addresses).Always (· ≠ .error (oversized n)) := by
  have hrows : ((addresses.partition Address.isBlank).2.map BatchRow.ofAddress).length ≤ maxRows := by
    rw [List.length_map, List.partition_eq_filter_filter]
    exact Nat.le_trans (List.length_filter_le _ _) h
  apply (submit_ne_oversized client hrows n).bind
  intro outcome houtcome
  cases outcome with
  | error error =>
    intro heq
    exact houtcome (by rw [Except.error.inj heq])
  | ok lines => rintro ⟨⟩

end Census

/-- However the services reply, a Census backend refuses no submission for its size that is not too large. -/
theorem Backend.submit_ne_oversized {σ : Type} (client : Census.Client) (bulk : Bool) {rows : List Address}
    (h : rows.length ≤ Census.maxRows) (w : World services σ) (s : σ) (n : Nat) :
    (((Backend.census client bulk).submit rows).run w s).1 ≠ some (.error (Census.oversized n)) :=
  fun heq => ((Census.geocodeBulk_ne_oversized client h n).through).run w s _ heq rfl

end Geocoding
