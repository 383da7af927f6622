import EmbeddedMarkup.Text.Cursor

/-!
# What a cursor reads

Whatever operations read from a cursor, one after the other, the pieces they give are the text
between the first place and the last one: nothing is skipped, read twice or made up
(`Run.reads`).
-/

namespace EmbeddedMarkup.Cursor

theorem take_append_rest {α : Type} (c : Cursor α) (n : Nat) :
    (c.take n).1 ++ (c.take n).2.rest = c.rest := by
  simp only [take, rest, advance]
  rcases Nat.le_total (c.pos + n) c.items.length with h | h
  · rw [Nat.min_eq_left h, ← List.drop_drop, List.take_append_drop]
  · rw [Nat.min_eq_right h, List.drop_length, List.append_nil, List.take_of_length_le]
    rw [List.length_drop]
    omega

theorem pos_take {α : Type} (c : Cursor α) (n : Nat) :
    (c.take n).2.pos = c.pos + (c.take n).1.length := by
  have := c.pos_le
  simp only [take, rest, advance, List.length_take, List.length_drop]
  omega

inductive Step : Cursor Char → Text → Cursor Char → Prop
  | next {c d a} (h : c.next? = some (a, d)) : Step c [a] d
  | matched {c d t} {r : Recognizer} (h : c.match? r = some (t, d)) : Step c t d
  | readUntil (c : Cursor Char) (r : Recognizer) : Step c (c.readUntil r).1 (c.readUntil r).2
  | readPast (c : Cursor Char) (r : Recognizer) : Step c (c.readPast r).1 (c.readPast r).2

inductive Run : Cursor Char → List Text → Cursor Char → Prop
  | refl (c : Cursor Char) : Run c [] c
  | step {c d e t ts} (h : Step c t d) (hs : Run d ts e) : Run c (t :: ts) e

variable {c d e : Cursor Char} {t : Text} {ts : List Text}

/-- The operations only choose how far to move. -/
theorem Step.exists_take (h : Step c t d) : ∃ n, c.take n = (t, d) := by
  cases h with
  | next h =>
      obtain ⟨a, ha, heq⟩ := Option.map_eq_some_iff.mp h
      obtain ⟨rest, hrest⟩ := List.head?_eq_some_iff.mp ha
      cases heq
      exact ⟨1, by rw [take, hrest]; rfl⟩
  | matched h =>
      obtain ⟨n, -, heq⟩ := Option.map_eq_some_iff.mp h
      exact ⟨n, heq⟩
  | readUntil r => exact ⟨r.reach c.rest, rfl⟩
  | readPast r => exact ⟨r.reachPast c.rest, rfl⟩

theorem Step.reads (h : Step c t d) :
    d.items = c.items ∧ c.rest = t ++ d.rest ∧ d.pos = c.pos + t.length := by
  obtain ⟨n, hn⟩ := h.exists_take
  have hrest := c.take_append_rest n
  have hpos := c.pos_take n
  have hitems : (c.take n).2.items = c.items := rfl
  rw [hn] at hrest hpos hitems
  exact ⟨hitems, hrest.symm, hpos⟩

theorem Run.reads (h : Run c ts e) :
    e.items = c.items ∧ c.rest = ts.flatten ++ e.rest ∧ e.pos = c.pos + ts.flatten.length := by
  induction h with
  | refl c => exact ⟨rfl, rfl, rfl⟩
  | step h _ ih =>
      obtain ⟨hitems, hrest, hpos⟩ := h.reads
      obtain ⟨ihitems, ihrest, ihpos⟩ := ih
      refine ⟨ihitems.trans hitems, ?_, ?_⟩
      · rw [hrest, ihrest, List.flatten_cons, List.append_assoc]
      · rw [ihpos, hpos, List.flatten_cons, List.length_append, Nat.add_assoc]

end EmbeddedMarkup.Cursor
