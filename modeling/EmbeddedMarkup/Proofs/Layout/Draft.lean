import EmbeddedMarkup.Layout.Page
import EmbeddedMarkup.Proofs.Layout.Indent
import EmbeddedMarkup.Proofs.Text.Joining

/-!
# The text of a page, line by line

The text of a page asks a table for the indentation of each line, and the table grows with what it
is asked. As long as no margin lies to the left of the text, the answers do not depend on that: the
indentation of a line is `Indent.lead`, the text of a line `Line.drawn`, and the page is the lines
one below the other (`Page.code_eq`).
-/

namespace EmbeddedMarkup.Layout

/-- The margin does not lie to the left of the text. -/
structure Margin.Fair (m : Margin) : Prop where
  column : 0 ≤ m.column

def Line.drawn (i : Indent) (indentEmpty : Bool) (l : Line) : Text :=
  if l.isEmpty then if indentEmpty then i.lead { l.margin with column := 0 } else []
  else i.lead l.margin ++ l.items.flatten

theorem Line.text_eq {i : Indent} {l : Line} (h : l.margin.Fair) (hsize : 0 ≤ i.size)
    (indentEmpty : Bool) :
    ∃ table, l.text i indentEmpty = .ok (l.drawn i indentEmpty, { i with table }) := by
  unfold Line.text Line.drawn
  split
  · split
    · exact Indent.text_eq (m := { l.margin with column := 0 }) (Int.le_refl 0) hsize
    · exact ⟨i.table, rfl⟩
  · obtain ⟨table, htable⟩ := Indent.text_eq h.column hsize
    exact ⟨table, by rw [htable]; rfl⟩

namespace Page

variable {p : Page}

theorem lineTexts_eq {i : Indent} {ls : List Line} (h : ∀ l ∈ ls, l.margin.Fair)
    (hsize : 0 ≤ i.size) (indentEmpty : Bool) :
    (lineTexts indentEmpty ls i).1 = .ok (ls.map (Line.drawn i indentEmpty)) := by
  induction ls generalizing i with
  | nil => rfl
  | cons l ls ih =>
      obtain ⟨table, htable⟩ := Line.text_eq (h l (List.mem_cons_self ..)) hsize indentEmpty
      have hrest :=
        ih (i := { i with table }) (fun l' hl' => h l' (List.mem_cons_of_mem l hl')) hsize
      simp only [lineTexts, htable, hrest]
      rfl

/-- The lines one below the other. -/
def drawn (p : Page) : Text :=
  Text.join ['\n'] (p.lines.map (Line.drawn p.indent p.indentEmptyLines))

/-- No margin lies to the left of the text. -/
structure Fair (p : Page) : Prop where
  size : 0 ≤ p.indent.size
  next : p.next.Fair
  above : ∀ l ∈ p.above, l.margin.Fair
  current : p.current.margin.Fair
  wrap : p.current.wrap.margin.Fair

theorem Margin.fair_default : Margin.Fair {} := ⟨Int.le_refl _⟩

namespace Fair

theorem startLine (h : p.Fair) : p.startLine.Fair where
  size := h.size
  next := h.next
  above := List.forall_mem_cons.mpr ⟨h.current, h.above⟩
  current := h.next
  wrap := Margin.fair_default

theorem addNewline (h : p.Fair) (force : Bool) : (p.addNewline force).Fair := by
  unfold Page.addNewline
  split
  · exact h.startLine
  · exact h

theorem startLines (h : p.Fair) (n : Nat) : (Page.startLines n p).Fair := by
  induction n generalizing p with
  | zero => exact h
  | succ n ih => exact ih h.startLine

/-- A line may get other items and another margin, as long as the margin is fair. -/
theorem withLine (h : p.Fair) {l : Line} (hl : l.margin.Fair) (hwrap : l.wrap.margin.Fair) :
    Fair { p with current := l } := ⟨h.size, h.next, h.above, hl, hwrap⟩

theorem setMargin (h : p.Fair) {m : Margin} (hm : m.Fair) : (p.setMargin m).Fair := by
  have hhere : (if p.above.isEmpty then { level := 0, column := 0 } else m).Fair := by
    split
    · exact ⟨Int.le_refl 0⟩
    · exact hm
  refine ⟨h.size, hm, h.above, ?_, ?_⟩
  · simp only [Page.setMargin, Line.setMargin]
    split
    · exact hhere
    · exact h.current
  · simp only [Page.setMargin, Line.setMargin]
    split <;> exact h.wrap

theorem setBreak (h : p.Fair) : p.setBreak.Fair := by
  unfold Page.setBreak
  split
  · exact h
  · exact h.withLine h.current h.next

theorem addSpace (h : p.Fair) : p.addSpace.Fair := by
  unfold Page.addSpace
  split
  · have hbreak : (if p.nonBreaking then p else p.setBreak).Fair := by
      split
      · exact h
      · exact h.setBreak
    exact { hbreak with }
  · exact { h with }

theorem pushItem (h : p.Fair) (item : Text) : (p.pushItem item).Fair :=
  { h.addSpace with }

theorem margin_dropSpace (l : Line) :
    (dropSpace l).margin = l.margin ∧ (dropSpace l).wrap = l.wrap := by
  unfold dropSpace
  split
  · split <;> exact ⟨rfl, rfl⟩
  · exact ⟨rfl, rfl⟩

theorem breakLine (h : p.Fair) : p.breakLine.Fair := by
  unfold Page.breakLine
  split
  · obtain ⟨hmargin, hwrap⟩ := margin_dropSpace (brokenRaw p.current)
    exact h.withLine (hmargin ▸ h.current) (hwrap ▸ h.wrap)
  · obtain ⟨hmargin, hwrap⟩ := margin_dropSpace p.brokenLine.2
    refine ⟨h.size, h.next, List.forall_mem_cons.mpr ⟨h.current, h.above⟩, ?_, ?_⟩
    · exact hmargin ▸ h.wrap
    · exact hwrap ▸ Margin.fair_default

theorem addItem (h : p.Fair) (item : Text) : (p.addItem item).Fair := by
  have hpush := h.pushItem item
  unfold Page.addItem
  dsimp only
  split
  · split
    · exact hpush.breakLine
    · exact { hpush.breakLine with }
  · exact { hpush with }

theorem addRaw (h : p.Fair) (newlines : Nat) (blank text : Text) :
    (p.addRaw newlines blank text).Fair := by
  have hlines := h.startLines newlines
  refine ⟨hlines.size, hlines.next, hlines.above, ?_, ?_⟩
  · simp only [Page.addRaw, Line.push, Line.setMargin]
    split
    · exact Margin.fair_default
    · exact hlines.current
  · simp only [Page.addRaw, Line.push, Line.setMargin]
    split <;> exact hlines.wrap

theorem indentText (h : p.Fair) {level column : Int} {t : Text} {q : Page}
    (hq : p.indentText level column = .ok (t, q)) : q.Fair := by
  unfold Page.indentText at hq
  cases he : p.indent.text level column with
  | error x => simp [he, Except.map] at hq
  | ok e =>
      rw [he] at hq
      obtain ⟨-, rfl⟩ := Prod.mk.inj (Except.ok.inj hq)
      obtain ⟨-, table, htable⟩ := Indent.text_eq_ok he
      exact { h with size := by rw [htable]; exact h.size }

theorem dropEmptyLines {l : Line} {above : List Line} (hl : l.margin.Fair)
    (habove : ∀ l ∈ above, l.margin.Fair) :
    (Page.dropEmptyLines l above).1.margin.Fair ∧
      ∀ m ∈ (Page.dropEmptyLines l above).2, m.margin.Fair := by
  induction above generalizing l with
  | nil => exact ⟨hl, by simp [Page.dropEmptyLines]⟩
  | cons l' above ih =>
      have hl' : l'.trim.margin.Fair := habove l' (List.mem_cons_self ..)
      unfold Page.dropEmptyLines
      split
      · exact ih hl' fun m hm => habove m (List.mem_cons_of_mem l' hm)
      · exact ⟨hl, habove⟩

theorem margin_pop (l : Line) : l.pop.2.margin = l.margin := by
  unfold Line.pop
  split <;> rfl

theorem finish (h : p.Fair) :
    0 ≤ p.finish.indent.size ∧ ∀ l ∈ p.finish.lines, l.margin.Fair := by
  obtain ⟨hlast, habove⟩ := dropEmptyLines (l := p.current.trim) h.current h.above
  have hpop := (margin_pop (Page.dropEmptyLines p.current.trim p.above).1).symm ▸ hlast
  unfold Page.finish
  simp only [Page.trim, if_true]
  split
  · refine ⟨h.size, fun l hl => ?_⟩
    simp only [lines, Page.startLine, List.reverse_cons, List.append_assoc, List.mem_append,
      List.mem_reverse, List.mem_cons, List.not_mem_nil, or_false] at hl
    rcases hl with hl | rfl | rfl
    · exact habove l hl
    · split
      · exact hpop
      · split <;> exact hpop
    · exact h.next
  · refine ⟨h.size, fun l hl => ?_⟩
    simp only [lines, List.mem_append, List.mem_reverse, List.mem_cons, List.not_mem_nil,
      or_false] at hl
    rcases hl with hl | rfl
    · exact habove l hl
    · split
      · exact hpop
      · split <;> exact hpop

end Fair

theorem code_eq (h : p.Fair) (eol : Text) :
    (p.code eol).1 = .ok (Text.join eol (Text.splitOn '\n' p.finish.drawn)) := by
  have hlines := lineTexts_eq h.finish.2 h.finish.1 p.finish.indentEmptyLines
  have hne : p.finish.lines.map (Line.drawn p.finish.indent p.finish.indentEmptyLines) ≠ [] := by
    simp [lines]
  unfold code texts
  dsimp only
  rw [hlines, drawn, Text.splitOn_join hne]
  rfl

end Page

end EmbeddedMarkup.Layout
