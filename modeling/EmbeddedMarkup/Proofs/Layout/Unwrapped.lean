import EmbeddedMarkup.Proofs.Layout.Draft

/-!
# Pages whose lines are not wrapped

Without a limit for the length of lines no line is ever broken. The text of a page then only grows
at its end: an item is written behind what is there, and a line end starts a line below it.
-/

namespace EmbeddedMarkup.Layout

theorem Line.isEmpty_setMargin (l : Line) (m : Margin) (w : Int) :
    (l.setMargin m w).isEmpty = l.isEmpty := by
  unfold Line.setMargin
  split <;> rfl

theorem Line.margin_setMargin {l : Line} (h : l.isEmpty = true) (m : Margin) (w : Int) :
    (l.setMargin m w).margin = m := by
  rw [Line.setMargin, if_pos h]

theorem Line.setMargin_eq_self {l : Line} (h : l.isEmpty = false) (m : Margin) (w : Int) :
    l.setMargin m w = l := by
  simp [Line.setMargin, h]

theorem Line.drawn_push (l : Line) (i : Indent) (indentEmpty : Bool) (item : Text) :
    (l.push item).drawn i indentEmpty = i.lead l.margin ++ l.items.flatten ++ item := by
  simp [Line.drawn, Line.push, Line.isEmpty]

namespace Page

variable {p : Page}

/-- There is no limit for lines, and no line of the page can be broken. -/
structure Unwrapped (p : Page) : Prop where
  limit : p.wrapLineLength = 0
  raw : p.raw = false
  line : p.current.wrap.index = 0

/-! ## What stands above -/

/-- The lines above the current one, each with its end. -/
def drawnAbove (p : Page) : Text :=
  p.above.reverse.flatMap fun l => l.drawn p.indent p.indentEmptyLines ++ ['\n']

def blankLine (p : Page) : Text := (Line.blank p.next 0).drawn p.indent p.indentEmptyLines

theorem drawn_eq (p : Page) :
    p.drawn = p.drawnAbove ++ p.current.drawn p.indent p.indentEmptyLines := by
  rw [drawn, lines, List.map_append, List.map_singleton, Text.join_concat, drawnAbove,
    List.flatMap_map]

theorem drawnAbove_startLine (p : Page) : p.startLine.drawnAbove = p.drawn ++ ['\n'] := by
  rw [drawn_eq, drawnAbove, drawnAbove, startLine, List.reverse_cons, List.flatMap_append]
  simp

theorem drawn_startLine (p : Page) : p.startLine.drawn = p.drawn ++ '\n' :: p.blankLine := by
  rw [drawn_eq, drawnAbove_startLine, List.append_assoc, List.singleton_append]
  rfl

/-- Line ends, with empty lines between them. -/
def lineEnds (p : Page) : Nat → Text
  | 0 => []
  | n + 1 => '\n' :: Text.times n (p.blankLine ++ ['\n'])

theorem drawnAbove_startLines (p : Page) (n : Nat) :
    (startLines (n + 1) p).drawnAbove = p.drawn ++ p.lineEnds (n + 1) := by
  unfold lineEnds
  induction n generalizing p with
  | zero => simpa [startLines, Text.times] using drawnAbove_startLine p
  | succ n ih =>
      rw [startLines, ih, drawn_startLine, show p.startLine.blankLine = p.blankLine from rfl]
      simp [Text.times, List.replicate_succ]

theorem startLines_succ_current (p : Page) (n : Nat) :
    (startLines (n + 1) p).current = .blank p.next (p.marginWidth p.next) := by
  induction n generalizing p with
  | zero => rfl
  | succ n ih => exact ih p.startLine

/-! ## What stands on the line -/

def pushed (p : Page) (item : Text) : Page := { p with current := p.current.push item }

theorem atLineStart_pushed (p : Page) (item : Text) : (p.pushed item).atLineStart = false := by
  simp [pushed, atLineStart, Line.push, Line.isEmpty]

theorem drawn_pushed (h : p.atLineStart = false) (item : Text) :
    (p.pushed item).drawn = p.drawn ++ item := by
  have hempty : p.current.isEmpty = false := h
  have hline : p.current.drawn p.indent p.indentEmptyLines =
      p.indent.lead p.current.margin ++ p.current.items.flatten := by simp [Line.drawn, hempty]
  rw [drawn_eq, drawn_eq, hline, pushed, Line.drawn_push]
  simp [drawnAbove]

theorem drawn_pushed_first (h : p.atLineStart = true) (item : Text) :
    (p.pushed item).drawn = p.drawnAbove ++ p.indent.lead p.current.margin ++ item := by
  have hitems : p.current.items = [] := by simpa [atLineStart, Line.isEmpty] using h
  rw [drawn_eq, pushed, Line.drawn_push, hitems]
  simp [drawnAbove]

/-! ## Items and tokens as they are -/

def spaced (p : Page) : Page := if p.spaceBefore && !p.atLineStart then p.pushed [' '] else p

namespace Unwrapped

theorem setBreak_eq (h : p.Unwrapped) : p.setBreak = p := by simp [setBreak, h.limit]

theorem addItem_eq (h : p.Unwrapped) (item : Text) :
    p.addItem item =
      { p.spaced.pushed item with
        spaceBefore := false, nonBreaking := false, wrapped := false } := by
  have hspace : p.addSpace = { p.spaced with spaceBefore := false } := by
    unfold addSpace spaced
    split
    · have hbreak : (if p.nonBreaking then p else p.setBreak) = p := by
        rw [h.setBreak_eq, ite_self]
      simp only [hbreak]
      rfl
    · rfl
  have hline : p.spaced.current.wrap.index = 0 := by
    unfold spaced
    split <;> exact h.line
  have hbreak : (p.pushItem item).shouldBreak = false := by
    simp [shouldBreak, pushItem, hspace, Line.push, hline]
  simp only [addItem, hbreak, Bool.false_eq_true, if_false]
  simp only [pushItem, hspace]
  rfl

theorem startLine (h : p.Unwrapped) : p.startLine.Unwrapped := ⟨h.limit, h.raw, rfl⟩

theorem startLines (h : p.Unwrapped) (n : Nat) : (Page.startLines n p).Unwrapped := by
  induction n generalizing p with
  | zero => exact h
  | succ n ih => exact ih h.startLine

theorem setMargin (h : p.Unwrapped) (m : Margin) : (p.setMargin m).Unwrapped := by
  refine ⟨h.limit, h.raw, ?_⟩
  simp only [Page.setMargin, Line.setMargin]
  split <;> exact h.line

theorem addItem (h : p.Unwrapped) (item : Text) : (p.addItem item).Unwrapped := by
  rw [h.addItem_eq]
  unfold spaced
  split <;> exact ⟨h.limit, h.raw, h.line⟩

theorem addRaw (h : p.Unwrapped) (n : Nat) (blank text : Text) :
    (p.addRaw n blank text).Unwrapped := by
  have hlines := h.startLines n
  refine ⟨hlines.limit, hlines.raw, ?_⟩
  simp only [Page.addRaw, Line.push, Line.setMargin]
  split <;> exact hlines.line

end Unwrapped

theorem drawn_setMargin (h : p.atLineStart = false) (m : Margin) :
    (p.setMargin m).drawn = p.drawn := by
  rw [drawn_eq, drawn_eq, setMargin, Line.setMargin_eq_self h]
  rfl

theorem atLineStart_setMargin (p : Page) (m : Margin) :
    (p.setMargin m).atLineStart = p.atLineStart :=
  Line.isEmpty_setMargin p.current _ _

theorem atLineStart_addRaw (p : Page) (n : Nat) (blank text : Text) :
    (p.addRaw n blank text).atLineStart = false := by
  simp [addRaw, atLineStart, Line.push, Line.isEmpty]

/-- The page with its current line moved out of all indentation, if nothing is on it. -/
def unindented (p : Page) : Page := { p with current := p.current.setMargin {} (p.marginWidth {}) }

theorem drawn_addRaw (h : p.atLineStart = false) (n : Nat) (blank text : Text) :
    (p.addRaw n blank text).drawn = p.drawn ++ (p.lineEnds n ++ (blank ++ text)) := by
  have hblank : ((startLines n p).unindented.pushed blank).drawn = p.drawn ++
      (p.lineEnds n ++ blank) := by
    cases n with
    | zero =>
        have hsame : (startLines 0 p).unindented = p := by
          rw [startLines, unindented, Line.setMargin_eq_self h]
        rw [hsame, drawn_pushed h]
        rfl
    | succ n =>
        have hempty : (startLines (n + 1) p).current.isEmpty = true := by
          rw [startLines_succ_current]
          rfl
        have hstart : (startLines (n + 1) p).unindented.atLineStart = true :=
          (Line.isEmpty_setMargin _ _ _).trans hempty
        have hmargin : (startLines (n + 1) p).unindented.current.margin = {} :=
          Line.margin_setMargin hempty _ _
        have habove : (startLines (n + 1) p).unindented.drawnAbove = p.drawn ++
            p.lineEnds (n + 1) :=
          drawnAbove_startLines p n
        have hlead : (startLines (n + 1) p).unindented.indent.lead {} = [] := by
          simp [Indent.lead]
        rw [drawn_pushed_first hstart, hmargin, habove, hlead, List.append_nil, List.append_assoc]
  have htext := drawn_pushed (atLineStart_pushed (startLines n p).unindented blank) text
  rw [hblank] at htext
  rw [← List.append_assoc (p.lineEnds n), ← List.append_assoc]
  exact htext

/-! ## Line ends that are asked for -/

/-- Nothing was written yet, or something is on the current line. -/
def Open (p : Page) : Prop := p.isEmpty = true ∨ p.atLineStart = false

/-- The page with `n` line ends; at the very start none are given. -/
def lowered (p : Page) (n : Nat) : Page := if p.isEmpty then p else startLines n p

theorem startLines_succ (n : Nat) (p : Page) :
    startLines (n + 1) p = (startLines n p).startLine := by
  induction n generalizing p with
  | zero => rfl
  | succ n ih => exact ih p.startLine

theorem lowered_of_isEmpty (h : p.isEmpty = true) (n : Nat) : p.lowered n = p :=
  by simp [lowered, h]

theorem lowered_of_started (h : p.atLineStart = false) (n : Nat) :
    p.lowered n = startLines n p := by
  have hempty : p.isEmpty = false := by simp [isEmpty, show p.current.isEmpty = false from h]
  simp [lowered, hempty]

theorem lowered_zero (p : Page) : p.lowered 0 = p := by simp [lowered, startLines]

theorem isEmpty_of_started (h : p.atLineStart = false) : p.isEmpty = false := by
  simp [isEmpty, show p.current.isEmpty = false from h]

theorem atLineStart_startLines (h : p.atLineStart = false) (n : Nat) :
    (startLines n p).atLineStart = (n != 0) := by
  cases n with
  | zero => exact h
  | succ n => simp [startLines_succ, atLineStart, startLine, Line.blank, Line.isEmpty]

theorem isEmpty_startLines (h : p.atLineStart = false) (n : Nat) :
    (startLines n p).isEmpty = false := by
  cases n with
  | zero => exact isEmpty_of_started h
  | succ n => simp [startLines_succ, isEmpty, startLine]

theorem Open.atLineStart_lowered (h : p.Open) (n : Nat) :
    (p.lowered n).atLineStart = (p.isEmpty || n != 0) := by
  rcases h with h | h
  · rw [lowered_of_isEmpty h, h]
    simp_all [isEmpty, atLineStart]
  · rw [lowered_of_started h, atLineStart_startLines h, isEmpty_of_started h, Bool.false_or]

theorem startLines_indent (n : Nat) (p : Page) : (startLines n p).indent = p.indent := by
  induction n generalizing p with
  | zero => rfl
  | succ n ih => exact ih p.startLine

theorem startLines_raw (n : Nat) (p : Page) : (startLines n p).raw = p.raw := by
  induction n generalizing p with
  | zero => rfl
  | succ n ih => exact ih p.startLine

/-- A line end that is asked for is given unless a line has just been started. -/
theorem Open.addNewline_false (h : p.Open) (hraw : p.raw = false) (n : Nat) :
    (p.lowered n).addNewline false = p.lowered (max n 1) := by
  rcases h with h | h
  · simp [lowered_of_isEmpty h, addNewline, allowsNewline, h]
  · rw [lowered_of_started h, lowered_of_started h, addNewline, allowsNewline, isEmpty_startLines h,
      atLineStart_startLines h, startLines_raw, hraw]
    cases n with
    | zero => rfl
    | succ n => simp

/-- A line end that is forced is given unless nothing was written yet. -/
theorem Open.addNewline_true (h : p.Open) (hraw : p.raw = false) (n : Nat) :
    (p.lowered n).addNewline true = p.lowered (n + 1) := by
  rcases h with h | h
  · simp [lowered_of_isEmpty h, addNewline, allowsNewline, h]
  · rw [lowered_of_started h, lowered_of_started h, addNewline, allowsNewline, isEmpty_startLines h,
      startLines_raw, hraw, startLines_succ]
    rfl

theorem Open.atBlankLine_lowered (h : p.Open) (n : Nat) :
    (p.lowered n).atBlankLine = (p.isEmpty || decide (2 ≤ n)) := by
  rcases h with h | h
  · simp [lowered_of_isEmpty h, atBlankLine, h]
  · have hline : p.current.isEmpty = false := h
    rw [lowered_of_started h, isEmpty_of_started h, atBlankLine, isEmpty_startLines h]
    rcases n with - | - | n
    · simp [startLines, hline]
    · simp [startLines, startLine, hline]
    · simp [startLines_succ, startLine, Line.blank, Line.isEmpty]

/-! ## Items on a line of their own, or behind a space -/

/-- The page with an item that stands `n` lines below, at the margin, or else behind a space. -/
def placed (p : Page) (n : Nat) (m : Margin) (space : Bool) (item : Text) : Page :=
  let q := (p.lowered n).setMargin m
  { (if space && !q.atLineStart then q.pushed [' '] else q).pushed item with
    spaceBefore := false
    nonBreaking := false
    wrapped := false }

/-- The blanks between what was written and an item that is placed. -/
def between (p : Page) (n : Nat) (m : Margin) (space : Bool) : Text :=
  if p.isEmpty then p.indent.lead { level := 0, column := 0 }
  else if n = 0 then if space then [' '] else []
  else p.lineEnds n ++ p.indent.lead m

theorem Unwrapped.lowered (h : p.Unwrapped) (n : Nat) : (p.lowered n).Unwrapped := by
  unfold Page.lowered
  split
  · exact h
  · exact h.startLines n

def flagged (p : Page) (space nonBreaking : Bool) : Page :=
  { p with spaceBefore := space, nonBreaking }

theorem Unwrapped.flagged (h : p.Unwrapped) (space nonBreaking : Bool) :
    (p.flagged space nonBreaking).Unwrapped := ⟨h.limit, h.raw, h.line⟩

theorem lowered_flagged (p : Page) (n : Nat) (space nonBreaking : Bool) :
    (p.flagged space nonBreaking).lowered n = (p.lowered n).flagged space nonBreaking := by
  have hlines : ∀ q : Page, startLines n (q.flagged space nonBreaking) =
      (startLines n q).flagged space nonBreaking := by
    induction n with
    | zero => exact fun q => rfl
    | succ n ih => exact fun q => ih q.startLine
  unfold lowered
  rw [hlines, show (p.flagged space nonBreaking).isEmpty = p.isEmpty from rfl]
  split <;> rfl

theorem Unwrapped.addItem_lowered (h : p.Unwrapped) (n : Nat) (m : Margin)
    (space nonBreaking : Bool) (item : Text) :
    (((p.flagged space nonBreaking).lowered n).setMargin m).addItem item = p.placed
      n m space item := by
  rw [(((h.flagged space nonBreaking).lowered n).setMargin m).addItem_eq, lowered_flagged]
  unfold spaced Page.placed
  rw [show (((p.lowered n).flagged space nonBreaking).setMargin m).spaceBefore = space from rfl,
    show (((p.lowered n).flagged space nonBreaking).setMargin m).atLineStart =
      ((p.lowered n).setMargin m).atLineStart from rfl]
  dsimp only
  split <;> rfl

theorem Unwrapped.placed (h : p.Unwrapped) (n : Nat) (m : Margin) (space : Bool) (item : Text) :
    (p.placed n m space item).Unwrapped := by
  rw [← h.addItem_lowered n m space false item]
  exact (((h.flagged space false).lowered n).setMargin m).addItem item

theorem atLineStart_placed (p : Page) (n : Nat) (m : Margin) (space : Bool) (item : Text) :
    (p.placed n m space item).atLineStart = false := by
  simp [placed, pushed, atLineStart, Line.push, Line.isEmpty]

/-- At the start of a line no space comes before an item. -/
theorem Open.placed_space (h : p.Open) {n : Nat} (hn : p.isEmpty = true ∨ n ≠ 0) (m : Margin)
    (space space' : Bool) (item : Text) : p.placed n m space item = p.placed n m space' item := by
  have hstart : ((p.lowered n).setMargin m).atLineStart = true := by
    rw [atLineStart_setMargin, h.atLineStart_lowered]
    rcases hn with hn | hn <;> simp [hn]
  simp [placed, hstart]

theorem drawn_placed_started (h : p.atLineStart = false) (n : Nat) (m : Margin) (space : Bool)
    (item : Text) : (p.placed n m space item).drawn = p.drawn ++ (p.between n m space ++ item) := by
  let q := (p.lowered n).setMargin m
  have hpushed : (p.placed n m space item).drawn =
      ((if space && !q.atLineStart then q.pushed [' '] else q).pushed item).drawn := rfl
  rw [hpushed, between, isEmpty_of_started h]
  cases n with
  | zero =>
      have hq : q.atLineStart = false := by
        rw [atLineStart_setMargin, lowered_zero, h]
      have hdrawn : q.drawn = p.drawn := by
        rw [show q = (p.lowered 0).setMargin m from rfl, lowered_zero, drawn_setMargin h]
      cases space with
      | false => simp [hq, drawn_pushed hq, hdrawn]
      | true => simp [hq, drawn_pushed (atLineStart_pushed q [' ']), drawn_pushed hq, hdrawn]
  | succ n =>
      have hstart : (startLines (n + 1) p).atLineStart = true := atLineStart_startLines h (n + 1)
      have hq : q.atLineStart = true := by
        rw [atLineStart_setMargin, lowered_of_started h, hstart]
      have habove : q.drawnAbove = p.drawn ++ p.lineEnds (n + 1) := by
        rw [← drawnAbove_startLines, ← lowered_of_started h]
        rfl
      have hmargin : q.current.margin = m := by
        have hnone : (startLines (n + 1) p).above.isEmpty = false := by
          simp [startLines_succ, startLine]
        rw [show q = (p.lowered (n + 1)).setMargin m from rfl, lowered_of_started h, setMargin,
          Line.margin_setMargin hstart]
        simp [hnone]
      have hindent : q.indent = p.indent := by
        rw [show q.indent = (p.lowered (n + 1)).indent from rfl, lowered_of_started h,
          startLines_indent]
      simp [hq, drawn_pushed_first hq, habove, hmargin, hindent]

theorem drawn_placed_first (h : p.isEmpty = true) (n : Nat) (m : Margin) (space : Bool)
    (item : Text) :
    (p.placed n m space item).drawn = p.between n m space ++ item := by
  obtain ⟨habove, hline⟩ : p.above = [] ∧ p.atLineStart = true := by
    simpa [isEmpty, atLineStart] using h
  let q := p.setMargin m
  have hq : q.atLineStart = true := by rw [atLineStart_setMargin, hline]
  have hmargin : q.current.margin = { level := 0, column := 0 } := by
    rw [show q = p.setMargin m from rfl, setMargin, Line.margin_setMargin hline]
    simp [habove]
  have hnone : q.drawnAbove = [] := by
    simp [show q = p.setMargin m from rfl, drawnAbove, setMargin, habove]
  have hpushed : (p.placed n m space item).drawn = (q.pushed item).drawn := by
    have hlowered : (p.lowered n).setMargin m = q := by rw [lowered_of_isEmpty h]
    simp only [placed, hlowered, hq, Bool.not_true, Bool.and_false, Bool.false_eq_true, if_false]
    rfl
  rw [hpushed, drawn_pushed_first hq, hnone, hmargin, between, h]
  rfl

/-! ## What never changes -/

/-- What a page has from its style. -/
def setting (p : Page) : Indent × Bool × Bool := (p.indent, p.indentEmptyLines, p.endWithNewline)

theorem setting_startLines (n : Nat) (p : Page) : (startLines n p).setting = p.setting := by
  induction n generalizing p with
  | zero => rfl
  | succ n ih => exact ih p.startLine

theorem setting_placed (p : Page) (n : Nat) (m : Margin) (space : Bool) (item : Text) :
    (p.placed n m space item).setting = p.setting := by
  have hlowered : (p.lowered n).setting = p.setting := by
    unfold lowered
    split
    · rfl
    · exact setting_startLines n p
  unfold placed
  dsimp only
  split <;> exact hlowered

theorem setting_addRaw (p : Page) (n : Nat) (blank text : Text) :
    (p.addRaw n blank text).setting = p.setting :=
  setting_startLines n p

theorem last?_placed (p : Page) (n : Nat) (m : Margin) (space : Bool) (item : Text) :
    (p.placed n m space item).current.last? = some item := by
  simp [placed, pushed, Line.push, Line.last?]

theorem lineEnds_eq (h : p.indentEmptyLines = false) (n : Nat) :
    p.lineEnds n = List.replicate n '\n' := by
  have hblank : p.blankLine = [] := by simp [blankLine, Line.drawn, Line.blank, Line.isEmpty, h]
  cases n with
  | zero => rfl
  | succ n => simp [lineEnds, hblank, Text.times, List.replicate_succ]

/-! ## The finished page -/

theorem trim_eq_self {l : Line} {item : Text} (hlast : l.last? = some item)
    (hspace : item ≠ [' ']) :
    l.trim = l := by
  have hnone : l.trailingSpaces = 0 := by
    obtain ⟨init, hinit⟩ := List.getLast?_eq_some_iff.mp hlast
    simp [Line.trailingSpaces, hinit, hspace]
  simp [Line.trim, hnone]

theorem dropEmptyLines_eq_self {l : Line} (h : l.isEmpty = false) (above : List Line) :
    dropEmptyLines l above = (l, above) := by
  cases above with
  | nil => rfl
  | cons l' above => simp [dropEmptyLines, h]

theorem items_repushed {l : Line} {item : Text} (hlast : l.last? = some item)
    (hend : item.getLast? ≠ some '\n') :
    (l.pop.2.push (Text.dropRightWhile (· == '\n') item)).items = l.items := by
  obtain ⟨init, hinit⟩ := List.getLast?_eq_some_iff.mp hlast
  have hself : ∀ c, item.getLast? = some c → (c == '\n') = false := by
    intro c hc
    rw [hc] at hend
    simpa using hend
  rw [Text.dropRightWhile_eq_self hself, Line.push, Line.pop, hlast]
  simp [hinit]

/-- Finishing a page leaves what is written, apart from a last line end that is wanted. -/
theorem drawn_finish {item : Text} (hlast : p.current.last? = some item) (hne : item ≠ [])
    (hspace : item ≠ [' ']) (hend : item.getLast? ≠ some '\n') :
    p.finish.drawn = p.drawn ++ if p.endWithNewline then '\n' :: p.blankLine else [] := by
  have hline : p.current.isEmpty = false := by
    obtain ⟨init, hinit⟩ := List.getLast?_eq_some_iff.mp hlast
    simp [Line.isEmpty, hinit]
  have htrim : p.trim true = p := by
    simp [trim, trim_eq_self hlast hspace, dropEmptyLines_eq_self hline]
  let q : Page := { p with current := p.current.pop.2.push (Text.dropRightWhile (· == '\n') item) }
  have hfinish : p.finish = if p.endWithNewline then q.startLine else q := by
    have hpop : p.current.pop.1 = some item := by simp [Line.pop, hlast]
    have hitem : item.isEmpty = false := by simpa using hne
    simp only [finish, htrim, hpop, hitem]
    rfl
  have hq : q.drawn = p.drawn := by
    have hitems := items_repushed hlast hend
    have hmargin : q.current.margin = p.current.margin := by simp [q, Line.push, Line.pop, hlast]
    have hempty : q.current.isEmpty = false := by
      rw [Line.isEmpty] at hline ⊢
      rw [hitems, hline]
    rw [drawn_eq, drawn_eq, Line.drawn, Line.drawn, if_neg (by simp [hempty]),
      if_neg (by simp [hline]), hmargin, hitems]
    rfl
  rw [hfinish]
  split
  · rw [drawn_startLine, hq]
    rfl
  · rw [hq, List.append_nil]

end Page

end EmbeddedMarkup.Layout
