import EmbeddedMarkup.Proofs.Html.Writing
import EmbeddedMarkup.Proofs.Layout.Unwrapped

/-!
# What writing a token does to a page without wrapping

Where lines are not wrapped, writing a token comes down to one stroke: some line ends, or a space,
or nothing, and then the text of the token. How many line ends there are depends on those in the gap
of the token and on those that the formatter wants, and the larger number wins.
-/

namespace EmbeddedMarkup

namespace Layout.Page

variable {p : Page}

/-- Between two tokens no space is due, and something is on the current line unless nothing was
written. -/
structure Settled (p : Page) : Prop where
  unwrapped : p.Unwrapped
  begun : p.Open
  space : p.spaceBefore = false
  nonBreaking : p.nonBreaking = false
  wrapped : p.wrapped = false

theorem Settled.flagged (h : p.Settled) : p.flagged false false = p := by
  obtain ⟨-, -, hspace, hbreak, -⟩ := h
  cases p
  simp_all [Page.flagged]

theorem settled_placed (h : p.Unwrapped) (n : Nat) (m : Margin) (space : Bool) (item : Text) :
    (p.placed n m space item).Settled :=
  ⟨h.placed n m space item, .inr (atLineStart_placed p n m space item), rfl, rfl, rfl⟩

theorem settled_addRaw (h : p.Unwrapped) (n : Nat) (blank text : Text) :
    (p.addRaw n blank text).Settled :=
  ⟨h.addRaw n blank text, .inr (atLineStart_addRaw p n blank text), rfl, rfl, rfl⟩

theorem setMargin_setMargin (p : Page) (m : Margin) :
    (p.setMargin m).setMargin m = p.setMargin m := by
  have hline : ∀ (l : Line) (m : Margin) (w : Int),
      (l.setMargin m w).setMargin m w = l.setMargin m w := by
    intro l m w
    cases h : l.isEmpty with
    | true => simp [Line.setMargin, show l.items = [] by simpa [Line.isEmpty] using h, Line.isEmpty]
    | false => rw [Line.setMargin_eq_self h, Line.setMargin_eq_self h]
  have hcurrent : ((p.setMargin m).setMargin m).current = (p.setMargin m).current := hline ..
  exact congrArg (fun l => { p.setMargin m with current := l }) hcurrent

end Layout.Page

namespace Html

open Layout (Page Margin)

def Token.withGap (t : Token) (gap : Gap) : Token := { t with gap }

namespace State

variable {s : State} {p : Page} {style : Style.General} {before : Kind} {t : Token}

def onto (s : State) (p : Page) : State := { s with page := p }

/-- The margin of the lines to come. -/
def margin (s : State) : Margin := { level := s.level, column := s.alignment }

theorem onto_self (s : State) : s.onto s.page = s := rfl

theorem print_onto (h : p.Unwrapped) (n : Nat) (space nonBreaking : Bool) {x : Text} (hx : x ≠ []) :
    (s.onto ((p.flagged space nonBreaking).lowered n)).print x =
      s.onto (p.placed n s.margin space x) := by
  have hempty : x.isEmpty = false := by simpa using hx
  rw [← h.addItem_lowered n s.margin space nonBreaking x, print, hempty]
  rfl

theorem newline_onto (h : p.Open) (hraw : p.raw = false) (n : Nat) :
    (s.onto (p.lowered n)).newline false = s.onto (p.lowered (max n 1)) :=
      congrArg s.onto (h.addNewline_false hraw n)

theorem newline_true_onto (h : p.Open) (hraw : p.raw = false) (n : Nat) :
    (s.onto (p.lowered n)).newline true = s.onto (p.lowered (n + 1)) :=
      congrArg s.onto (h.addNewline_true hraw n)

theorem newlines_onto (h : p.Open) (hraw : p.raw = false) (n : Nat) :
    newlines n (s.onto p) = s.onto (p.lowered n) := by
  induction n with
  | zero => rw [newlines, Page.lowered_zero]
  | succ n ih =>
      rw [newlines, ih]
      cases n with
      | zero => exact newline_onto h hraw 0
      | succ n => exact newline_true_onto h hraw (n + 1)

/-- The number of line ends that the gap of a token gives. -/
def gapLines (style : Style.General) (before : Kind) (t : Token) : Nat :=
  (keptNewlines style before t).toNat

def gapSpace (style : Style.General) (before : Kind) (t : Token) : Bool :=
  t.gap.isPresent && gapLines style before t == 0

theorem keptNewlines_eq (h : 0 ≤ style.maxPreserveNewlines) (before : Kind) (t : Token) :
    keptNewlines style before t = gapLines style before t :=
      (Int.toNat_of_nonneg (keptNewlines_nonneg before t h)).symm

theorem gapLines_of_absent (h : 0 ≤ style.maxPreserveNewlines) (before : Kind)
    (ht : t.gap.newlines = 0) : gapLines style before t = 0 := by
  have hzero : (0 : Int) < style.maxPreserveNewlines + 1 := by omega
  unfold gapLines keptNewlines
  simp [ht, hzero]

theorem printGap_onto (hmax : 0 ≤ style.maxPreserveNewlines) (h : p.Open) (hraw : p.raw = false)
    (before : Kind) (t : Token) (space nonBreaking : Bool) :
    printGap style before t (s.onto (p.flagged space nonBreaking)) =
      s.onto ((p.flagged (space || gapSpace style before t) nonBreaking).lowered
        (gapLines style before t)) := by
  unfold printGap gapSpace
  rw [keptNewlines_eq hmax]
  cases hgap : t.gap.isPresent with
  | false =>
      simp [gapLines_of_absent hmax before (Gap.eq_nil_of_absent hgap).1, Page.lowered_zero]
  | true =>
      by_cases hn : gapLines style before t = 0
      · simp only [hn, Page.lowered_zero]
        simp
        rfl
      · simp only [if_true, Int.natCast_eq_zero, hn, if_false, Int.toNat_natCast]
        rw [newlines_onto (p := p.flagged space nonBreaking) h hraw,
          show (gapLines style before t == 0) = false by simpa using hn, Bool.and_false,
          Bool.or_false]

theorem printGap_settled (hmax : 0 ≤ style.maxPreserveNewlines) (h : s.page.Settled) (before : Kind)
    (t : Token) :
    printGap style before t s =
      s.onto ((s.page.flagged (gapSpace style before t) false).lowered
        (gapLines style before t)) := by
  have := printGap_onto (s := s) hmax h.begun h.unwrapped.raw before t false false
  rwa [h.flagged, onto_self, Bool.false_or] at this

end State

namespace Setup

variable {setup : Setup} {s : State} {p : Page} {before : Kind} {t : Token} {following : List Token}
  {tag : Tag}

/-! ## Text -/

theorem writeText_raw (hlanguage : s.lastTag.language = none)
    (hraw : (s.lastTag.isUnformatted || s.lastTag.isContentUnformatted) = true) :
    setup.writeText before t s =
      .ok { s.onto (s.page.addRaw t.gap.newlines t.gap.blank t.text) with last := .content } := by
  simp only [writeText, hlanguage, hraw]
  rfl

theorem writeText_plain (hmax : 0 ≤ setup.style.maxPreserveNewlines) (h : s.page.Settled)
    (ht : t.text ≠ []) (hlanguage : s.lastTag.language = none)
    (hraw : (s.lastTag.isUnformatted || s.lastTag.isContentUnformatted) = false) :
    setup.writeText before t s =
      .ok { s.onto (s.page.placed (State.gapLines setup.style.toGeneral before t) s.margin
        (State.gapSpace setup.style.toGeneral before t) t.text) with last := .content } := by
  simp only [writeText, hlanguage, hraw]
  rw [State.printGap_settled hmax h, State.print_onto h.unwrapped _ _ _ ht]
  rfl

/-! ## Inside a tag -/

def insideSpace (before : Kind) (t : Token) : Bool :=
  if t.kind == .attrName then true
  else if t.kind == .equals || (t.kind == .value && before == .equals) then false
  else t.gap.isPresent

/-- Whether the line ends before a token inside a tag are kept. -/
def keepsLines (setup : Setup) (tag : Tag) (t : Token) : Bool :=
  t.kind == .attrName && tag.startsWith '<' && setup.style.wrapAttributes.isPreserved

/-- Whether a token inside a tag goes on a line of its own in any case. -/
def forces (setup : Setup) (tag : Tag) (last : Written) (t : Token) : Bool :=
  t.kind == .attrName && tag.startsWith '<' && setup.forcesLine tag last

/-- The number of line ends before a token inside a tag. -/
def insideLines (setup : Setup) (before : Kind) (t : Token) (s : State) : Nat :=
  max (if setup.keepsLines s.lastTag t then State.gapLines setup.style.toGeneral before t else 0)
    (if setup.forces s.lastTag s.last t then 1 else 0)

/-- Whether an attribute stands on a line of its own, the token included. -/
def insideWrapped (setup : Setup) (t : Token) (s : State) : Bool :=
  s.lastTag.hasWrapped || (setup.keepsLines s.lastTag t && t.gap.newlines != 0) ||
    setup.forces s.lastTag s.last t

theorem setSpace_inside (before : Kind) (t : Token) (s : State) : ∃ nonBreaking,
    (if (t.kind == .attrName) = true then (s.setSpace t.gap.isPresent true).setSpace true false
      else if (t.kind == .equals || (t.kind == .value && before == .equals)) = true then
        (s.setSpace t.gap.isPresent true).setSpace false false
      else s.setSpace t.gap.isPresent true) =
    s.onto (s.page.flagged (insideSpace before t) nonBreaking) := by
  unfold insideSpace
  split
  · exact ⟨false, rfl⟩
  · split
    · exact ⟨false, rfl⟩
    · exact ⟨true, rfl⟩

theorem newline_if_onto (h : p.Open) (hraw : p.raw = false) (b : Bool) (s : State) (n : Nat) :
    (if b = true then (s.onto (p.lowered n)).newline false else s.onto (p.lowered n)) =
      s.onto (p.lowered (max n b.toNat)) := by
  cases b with
  | false => simp
  | true => exact State.newline_onto h hraw n

theorem printGap_inside (hmax : 0 ≤ setup.style.maxPreserveNewlines) (h : s.page.Settled)
    (before : Kind) (t : Token) (nonBreaking : Bool) :
    (if (t.kind == .attrName && s.lastTag.startsWith '<' &&
      setup.style.wrapAttributes.isPreserved) = true
      then State.printGap setup.style.toGeneral before t
        (s.onto (s.page.flagged (insideSpace before t) nonBreaking))
      else s.onto (s.page.flagged (insideSpace before t) nonBreaking)) =
    s.onto ((s.page.flagged (insideSpace before t) nonBreaking).lowered
      (if setup.keepsLines s.lastTag t then State.gapLines setup.style.toGeneral before t
        else 0)) := by
  unfold keepsLines
  split
  · next hkeeps =>
      have hattr : insideSpace before t = true := by
        simp only [Bool.and_eq_true] at hkeeps
        simp [insideSpace, hkeeps.1.1]
      rw [State.printGap_onto hmax h.begun h.unwrapped.raw, hattr, Bool.true_or]
  · rw [Page.lowered_zero]

theorem writeInsideTag_plain (hmax : 0 ≤ setup.style.maxPreserveNewlines) (h : s.page.Settled)
    (ht : t.text ≠ []) (hraw : s.lastTag.isUnformatted = false)
    (hbrace : s.lastTag.startsWith '{' = false) :
    setup.writeInsideTag before t s =
      { s.onto
        (s.page.placed (setup.insideLines before t s) s.margin (insideSpace before t) t.text) with
        lastTag := { s.lastTag with hasWrapped := setup.insideWrapped t s }, last := .other } := by
  obtain ⟨nonBreaking, hspace⟩ := setSpace_inside before t s
  have hgap := printGap_inside hmax h before t nonBreaking
  have hline :=
    newline_if_onto (p := s.page.flagged (insideSpace before t) nonBreaking) h.begun h.unwrapped.raw
    (setup.forces s.lastTag s.last t) s
  have hlines :
      max (if setup.keepsLines s.lastTag t then State.gapLines setup.style.toGeneral before t
          else 0)
        (setup.forces s.lastTag s.last t).toNat = setup.insideLines before t s :=
    congrArg _ (Bool.cond_eq_ite ..)
  have hwrapped : ∀ b, (b || (s.onto (s.page.placed (setup.insideLines before t s) s.margin
      (insideSpace before t) t.text)).page.wrapped) = b := fun b => Bool.or_false b
  unfold writeInsideTag
  simp only [hraw, hbrace, Bool.false_and, Bool.false_eq_true, if_false, hspace, hgap]
  rw [show (t.kind == .attrName && s.lastTag.startsWith '<' && setup.forcesLine s.lastTag s.last) =
    setup.forces s.lastTag s.last t from rfl, hline, hlines, State.print_onto h.unwrapped _ _ _ ht,
    hwrapped]
  rfl

/-! ## The end of a tag -/

/-- What follows the end of a tag: its content may be indented. -/
def afterClose (tag : Tag) (s : State) : State :=
  let asItIs := tag.isUnformatted || tag.isContentUnformatted
  let indents := tag.indentsContent && !asItIs
  let s := if indents then s.indent else s
  let tag := if indents then { tag with indentsContent := false } else tag
  let s := if tag.isInline || asItIs then s else s.setBreak
  { s with lastTag := tag, last := .tagClose }

/-- The number of line ends before the end of a tag. -/
def closeLines (setup : Setup) (tag : Tag) : Nat :=
  if setup.style.wrapAttributes == .forceExpandMultiline && tag.hasWrapped then 1 else 0

theorem closeLines_eq_zero (h : tag.hasWrapped = false) : setup.closeLines tag = 0 := by
  simp [closeLines, h]

def printClose (setup : Setup) (t : Token) (s : State) : State :=
  let tag := s.lastTag
  let s := { s with alignment := 0 }.setSpace t.gap.isPresent true
  if tag.isUnformatted then s.printRaw t
  else
    let s :=
      if tag.startsWith '<' then
        let s := s.setSpace (t.startsWith '/') true
        if setup.style.wrapAttributes == .forceExpandMultiline && tag.hasWrapped then
          s.newline false
        else s
      else s
    s.print t.text

theorem writeTagClose_eq (setup : Setup) (t : Token) (s : State) :
    setup.writeTagClose t s =
      afterClose { s.lastTag with isComplete := true } (setup.printClose t s) := rfl

theorem printClose_plain (h : s.page.Settled) (ht : t.text ≠ [])
    (hraw : s.lastTag.isUnformatted = false) (hangle : s.lastTag.startsWith '<' = true) :
    setup.printClose t s =
      { s with alignment := 0 }.onto (s.page.placed (setup.closeLines s.lastTag)
        { level := s.level, column := 0 } (t.startsWith '/') t.text) := by
  let s₀ : State := { s with alignment := 0 }
  have hspace : (s₀.setSpace t.gap.isPresent true).setSpace (t.startsWith '/') true =
      s₀.onto ((s.page.flagged (t.startsWith '/') true).lowered 0) := by
    rw [Page.lowered_zero]
    rfl
  have hline :=
    newline_if_onto (p := s.page.flagged (t.startsWith '/') true) h.begun h.unwrapped.raw
    (setup.style.wrapAttributes == .forceExpandMultiline && s.lastTag.hasWrapped) s₀ 0
  have hlines :
      (setup.style.wrapAttributes == .forceExpandMultiline && s.lastTag.hasWrapped).toNat =
        setup.closeLines s.lastTag := Bool.cond_eq_ite ..
  simp only [printClose, hraw, hangle, Bool.false_eq_true, if_false, if_true]
  rw [hspace, hline, State.print_onto (s := s₀) h.unwrapped _ _ _ ht, Nat.zero_max, hlines]
  rfl

theorem afterClose_raw (h : (tag.isUnformatted || tag.isContentUnformatted) = true) :
    afterClose tag s = { s with lastTag := tag, last := .tagClose } := by
  unfold afterClose
  simp only [h, Bool.not_true, Bool.and_false, Bool.or_true, Bool.false_eq_true, if_true, if_false]

theorem page_afterClose (h : s.page.Unwrapped) (tag : Tag) :
    (afterClose tag s).page = s.page ∨ ∃ m, (afterClose tag s).page = s.page.setMargin m := by
  unfold afterClose
  extract_lets asItIs indents s₁ tag' s₂
  have hlevel : s₁.page = s.page := by
    simp only [s₁]
    split <;> rfl
  simp only [s₂]
  split
  · exact .inl hlevel
  · refine .inr ⟨s₁.margin, ?_⟩
    rw [← hlevel] at h ⊢
    exact (h.setMargin _).setBreak_eq

/-! ## The place of a tag -/

theorem moveOnStack_empty (hempty : tag.isEmpty = true) :
    moveOnStack t following tag s = (none, tag, s) := by
  simp [moveOnStack, hempty]

theorem moveOnStack_end (hempty : tag.isEmpty = false) (hend : tag.isEnd = true) :
    moveOnStack t following tag s =
      ((s.stack.find? [tag.name] []).map Prod.fst, tag,
        (s.stack.find? [tag.name] []).elim s s.popTo) := by
  simp only [moveOnStack, hempty, hend, Bool.false_eq_true, if_false, if_true]
  cases s.stack.find? [tag.name] [] <;> rfl

/-- Closes the element that a start tag closes, if there is one. -/
def endImplied (tag : Tag) (s : State) : State :=
  (s.stack.impliedEnd? tag.name).elim s fun found =>
    if tag.isInline then s.popTo found else (s.popTo found).newline false

/-- The element that a start tag opens. -/
def frameOf (tag : Tag) (level : Nat) : Frame :=
  { id := tag.id, name := tag.name, level, isInline := tag.isInline }

theorem moveOnStack_start (hempty : tag.isEmpty = false) (hend : tag.isEnd = false) :
    moveOnStack t following tag s =
      (none, { tag with language := languageOf t following tag },
        { endImplied tag s with
          stack := frameOf tag (endImplied tag s).level :: (endImplied tag s).stack }) := by
  simp only [moveOnStack, languageOf, endImplied, hempty, hend, Bool.false_eq_true, if_false,
    Bool.or_false]
  cases s.stack.impliedEnd? tag.name <;> rfl

theorem placeTag_eq {started : Option Frame} {tag' : Tag} {s' : State}
    (h : moveOnStack t following tag s = (started, tag', s')) :
    setup.placeTag t following tag s =
      if tag'.isEmpty then placeEmpty tag' (setup.placeExtraLine tag' s')
      else if tag'.isEnd then (tag', placeEnd tag' started (setup.placeExtraLine tag' s'))
      else setup.placeStart tag' (setup.placeExtraLine tag' s') := by
  rw [placeTag, h]

/-- The stack after a tag, given whether the tag starts a line. -/
def noted (tag : Tag) (k : Nat) (stack : TagStack) (atStart : Bool) : TagStack :=
  if atStart && stack[k]?.any fun parent =>
      !((tag.isInline || tag.isUnformatted) && parent.isInline) then
    stack.markMultiline k
  else stack

theorem noteMultiline_eq (tag : Tag) (k : Nat) (s : State) :
    noteMultiline tag k s = { s with stack := noted tag k s.stack s.page.atLineStart } := by
  unfold noteMultiline noted
  cases hparent : s.stack[k]? with
  | none => simp
  | some parent =>
      simp only [Option.any_some]
      split <;> rfl

/-- Whether an end tag is put on a line of its own. -/
def expands (tag : Tag) (started : Option Frame) (s : State) : Bool :=
  let closesLast := started.any fun f => f.id == s.lastTag.id
  (started.any (·.isMultiline) ||
    (!tag.isInline && !(s.lastTag.isInline || s.lastTag.isUnformatted) &&
      !(s.last == .tagClose && closesLast) && s.last != .content)) &&
    !(tag.isContentUnformatted || tag.isUnformatted)

def startsLine (tag : Tag) (s : State) : Bool :=
  !(tag.isInline || tag.isUnformatted) && (s.last != .content || tag.isContentUnformatted)

/-- Whether the content after a start tag is indented. -/
def indents (setup : Setup) (tag : Tag) : Bool :=
  if !tag.startsWith '<' then tag.language.isNone
  else if tag.name == "html".toList then setup.style.indentInnerHtml
  else if tag.name == "head".toList then setup.style.indentHeadInnerHtml
  else if tag.name == "body".toList then setup.style.indentBodyInnerHtml
  else tag.language.isNone

theorem noteMultiline_onto (h : p.Open) (tag : Tag) (k : Nat) (s : State) (n : Nat) :
    noteMultiline tag k (s.onto (p.lowered n)) =
      { s with stack := noted tag k s.stack (p.isEmpty || n != 0) }.onto (p.lowered n) := by
  rw [noteMultiline_eq, show (s.onto (p.lowered n)).page.atLineStart =
    (p.lowered n).atLineStart from rfl, h.atLineStart_lowered]
  rfl

theorem endImplied_onto (tag : Tag) (s : State) :
    ∃ c level stack, ∀ {p : Page}, p.Open → p.raw = false → ∀ n,
    endImplied tag (s.onto (p.lowered n)) = { s with level, stack }.onto (p.lowered (max n c)) := by
  have hstack : ∀ q, endImplied tag (s.onto q) =
      (s.stack.impliedEnd? tag.name).elim (s.onto q) fun found =>
        if tag.isInline then (s.popTo found).onto q else ((s.popTo found).onto q).newline false :=
    fun q => rfl
  cases himplied : s.stack.impliedEnd? tag.name with
  | none =>
      refine ⟨0, s.level, s.stack, fun _ _ n => ?_⟩
      rw [hstack, himplied, Nat.max_zero]
      rfl
  | some found =>
      refine ⟨(!tag.isInline).toNat, found.1.level, found.2, fun h hraw n => ?_⟩
      have hline := newline_if_onto h hraw (!tag.isInline) (s.popTo found) n
      rw [hstack, himplied]
      cases hinline : tag.isInline with
      | true => simp [State.popTo]
      | false =>
          rw [hinline] at hline
          exact hline

theorem moveOnStack_onto (s : State) (t : Token) (following : List Token) (tag : Tag) :
    ∃ c started level stack, ∀ {p : Page}, p.Open → p.raw = false → ∀ n,
      moveOnStack t following tag (s.onto (p.lowered n)) =
        (started, { tag with language := languageOf t following tag },
          { s with level, stack }.onto (p.lowered (max n c))) := by
  by_cases hempty : tag.isEmpty = true
  · have hlanguage : languageOf t following tag = tag.language := by simp [languageOf, hempty]
    refine ⟨0, none, s.level, s.stack, fun _ _ n => ?_⟩
    rw [hlanguage, moveOnStack_empty hempty, Nat.max_zero]
  · rw [Bool.not_eq_true] at hempty
    by_cases hend : tag.isEnd = true
    · have hlanguage : languageOf t following tag = tag.language := by simp [languageOf, hend]
      have hmove : ∀ q, moveOnStack t following tag (s.onto q) =
          ((s.stack.find? [tag.name] []).map Prod.fst, tag,
            (s.stack.find? [tag.name] []).elim (s.onto q) fun found => (s.popTo found).onto q) :=
        fun q => moveOnStack_end hempty hend
      cases hfind : s.stack.find? [tag.name] [] with
      | none =>
          refine ⟨0, none, s.level, s.stack, fun _ _ n => ?_⟩
          rw [hlanguage, hmove, hfind, Nat.max_zero]
          rfl
      | some found =>
          refine ⟨0, some found.1, found.1.level, found.2, fun _ _ n => ?_⟩
          rw [hlanguage, hmove, hfind, Nat.max_zero]
          rfl
    · obtain ⟨c, level, stack, himplied⟩ := endImplied_onto tag s
      refine ⟨c, none, level, frameOf tag level :: stack, fun h hraw n => ?_⟩
      rw [moveOnStack_start hempty (by simpa using hend), himplied h hraw]
      rfl

section

variable (h : p.Open) (hraw : p.raw = false)

include h hraw

theorem placeExtraLine_onto (tag : Tag) (s : State) (n : Nat) :
    setup.placeExtraLine tag (s.onto (p.lowered n)) =
      s.onto (p.lowered (max n (if setup.style.extraLiners.has tag.check then 2 else 0))) := by
  unfold placeExtraLine
  split
  · rw [State.newline_onto h hraw]
    have hblank : (s.onto (p.lowered (max n 1))).page.atBlankLine =
        (p.isEmpty || decide (2 ≤ max n 1)) :=
      h.atBlankLine_lowered _
    dsimp only
    rw [State.newline_true_onto h hraw, hblank]
    cases hp : p.isEmpty with
    | true => simp [Page.lowered_of_isEmpty hp]
    | false =>
        by_cases hn : 2 ≤ n
        · have : max n 1 = n := by omega
          simp [hn, this]
        · have : max n 1 + 1 = 2 := by omega
          have hmax : max n 2 = 2 := by omega
          simp [this, hmax, show ¬2 ≤ max n 1 by omega]
  · simp

theorem placeEnd_onto (tag : Tag) (started : Option Frame) (s : State) (n : Nat) :
    placeEnd tag started (s.onto (p.lowered n)) =
      s.onto (p.lowered (max n (expands tag started s).toNat)) :=
  newline_if_onto h hraw (expands tag started s) s n

theorem placeStart_onto (tag : Tag) (s : State) (n : Nat) :
    setup.placeStart tag (s.onto (p.lowered n)) =
      ({ tag with indentsContent := setup.indents tag },
        { s with
          stack := noted tag 1 s.stack (p.isEmpty || max n (startsLine tag s).toNat != 0) }.onto
          (p.lowered (max n (startsLine tag s).toNat))) := by
  rw [← noteMultiline_onto h, ← newline_if_onto h hraw (startsLine tag s) s n]
  rfl

end

theorem placeEmpty_onto (hbrace : tag.startsWith '{' = false) (s : State) :
    ∃ (c : Nat) (stackAt : Bool → TagStack), ∀ {p : Page}, p.Open → p.raw = false → ∀ n,
      placeEmpty tag (s.onto (p.lowered n)) =
        (tag, { s with stack := stackAt (p.isEmpty || max n c != 0) }.onto
          (p.lowered (max n c))) := by
  let staysPut := tag.name == "!--".toList && s.last == .tagClose && s.lastTag.isEnd &&
    tag.text.contains '\n'
  have hplain : ∀ q, placeEmpty tag (s.onto q) =
      if staysPut = true then (tag, s.onto q)
      else (tag, noteMultiline tag 0
        (if (!(tag.isInline || tag.isUnformatted)) = true then (s.onto q).newline false
          else s.onto q)) := by
    intro q
    simp only [placeEmpty, hbrace, Bool.false_and, Bool.false_eq_true, if_false, Bool.not_eq_true']
    cases tag.isInline || tag.isUnformatted <;> rfl
  cases hstays : staysPut with
  | true => exact ⟨0, fun _ => s.stack, fun _ _ n => by rw [hplain, hstays]; simp⟩
  | false =>
      refine ⟨(!(tag.isInline || tag.isUnformatted)).toNat, noted tag 0 s.stack, fun h hraw n => ?_⟩
      rw [hplain, hstays, if_neg (by simp), newline_if_onto h hraw, noteMultiline_onto h]

/-- A tag is placed by as many line ends as are wanted before it, unless there are more already. All
else depends on the page only by whether the tag then starts a line. -/
theorem placeTag_onto (setup : Setup) (hbrace : tag.startsWith '{' = false) (s : State) (t : Token)
    (following : List Token) :
    ∃ (c : Nat) (indents : Bool) (level : Nat) (stackAt : Bool → TagStack),
      ∀ {p : Page}, p.Open → p.raw = false → ∀ n,
      setup.placeTag t following tag (s.onto (p.lowered n)) =
        ({ tag with language := languageOf t following tag, indentsContent := indents },
          { s with level, stack := stackAt (p.isEmpty || max n c != 0) }.onto
          (p.lowered (max n c))) := by
  obtain ⟨c₁, started, level, stack, hmove⟩ := moveOnStack_onto s t following tag
  let tag' := { tag with language := languageOf t following tag }
  let s' := { s with level, stack }
  obtain ⟨c₂, hplace⟩ : ∃ c₂, ∀ {p : Page}, p.Open → p.raw = false → ∀ n,
      setup.placeTag t following tag (s.onto (p.lowered n)) =
        let q := s'.onto (p.lowered (max n c₂))
        if tag.isEmpty then placeEmpty tag' q
        else if tag.isEnd then (tag', placeEnd tag' started q)
        else setup.placeStart tag' q := by
    refine ⟨max c₁ (if setup.style.extraLiners.has tag.check then 2 else 0), fun h hraw n => ?_⟩
    rw [placeTag_eq (hmove h hraw n), placeExtraLine_onto h hraw, Nat.max_assoc]
  by_cases hempty : tag.isEmpty = true
  · obtain ⟨c₃, stackAt, hput⟩ := placeEmpty_onto (show tag'.startsWith '{' = false from hbrace) s'
    refine ⟨max c₂ c₃, tag.indentsContent, level, stackAt, fun h hraw n => ?_⟩
    rw [hplace h hraw, if_pos hempty, ← Nat.max_assoc]
    exact hput h hraw _
  · by_cases hend : tag.isEnd = true
    · let c₃ := (expands tag' started s').toNat
      refine ⟨max c₂ c₃, tag.indentsContent, level, fun _ => stack, fun h hraw n => ?_⟩
      rw [hplace h hraw, if_neg hempty, if_pos hend, ← Nat.max_assoc]
      exact congrArg (Prod.mk tag') (placeEnd_onto h hraw tag' started s' _)
    · let c₃ := (startsLine tag' s').toNat
      refine ⟨max c₂ c₃, setup.indents tag', level, noted tag' 1 stack, fun h hraw n => ?_⟩
      rw [hplace h hraw, if_neg hempty, if_neg hend, ← Nat.max_assoc]
      exact placeStart_onto h hraw tag' s' _

/-! ## The opening of a tag -/

/-- Whether a tag ends an element whose content was written as it is. -/
def endsRaw (s : State) (t : Token) (tag : Tag) : Bool :=
  (s.lastTag.isUnformatted || s.lastTag.isContentUnformatted) && !s.lastTag.isEmpty &&
    t.kind == .tagOpen && !tag.isStart

/-- What follows the opening of a tag: its attributes may be aligned. -/
def afterOpen (setup : Setup) (t : Token) (following : List Token) (tag : Tag) (s : State) :
    State :=
  let count := if tag.isStart && setup.style.wrapAttributes.isForced then
    countAttributes following else 0
  let alignment : Int := if setup.style.wrapAttributes.isAligned then t.text.length + 1
    else setup.style.wrapAttributesIndentSize
  let s := if tag.isComplete || tag.isUnformatted then s else { s with alignment }
  { s with lastTag := { tag with attrCount := count }, last := .tagOpen }

/-- Pops the stack down to the named element, if it is open. -/
def popNamed (name : Text) (s : State) : State := (s.stack.find? [name] []).elim s s.popTo

theorem page_afterOpen (t : Token) (following : List Token) (tag : Tag) (s : State) :
    (setup.afterOpen t following tag s).page = s.page := by
  unfold afterOpen
  dsimp only
  split <;> rfl

theorem page_popNamed (name : Text) (s : State) : (popNamed name s).page = s.page := by
  unfold popNamed
  cases s.stack.find? [name] [] <;> rfl

theorem writeTagOpen_raw (h : endsRaw s t (Tag.ofToken setup.style t following) = true) :
    setup.writeTagOpen before t following s =
      let tag := Tag.ofToken setup.style t following
      setup.afterOpen t following tag
        (popNamed tag.name (s.onto (s.page.addRaw t.gap.newlines t.gap.blank t.text))) := by
  unfold endsRaw at h
  simp only [writeTagOpen, h, if_true]
  rw [popNamed, show (s.onto (s.page.addRaw t.gap.newlines t.gap.blank t.text)).stack = s.stack from
    rfl, show (s.printRaw t).stack = s.stack from rfl]
  cases s.stack.find? [(Tag.ofToken setup.style t following).name] [] <;> rfl

theorem writeTagOpen_placed (h : endsRaw s t (Tag.ofToken setup.style t following) = false) :
    setup.writeTagOpen before t following s =
      let r := setup.placeTag t following (Tag.ofToken setup.style t following)
        (State.printGap setup.style.toGeneral before t s)
      setup.afterOpen t following r.1
          ((if r.1.isInline then r.2 else r.2.setBreak).print t.text) := by
  unfold endsRaw at h
  simp only [writeTagOpen, h, Bool.false_eq_true, if_false]
  rfl

theorem print_setBreak (h : s.page.Unwrapped) {x : Text} (hx : x ≠ []) :
    s.setBreak.print x = s.print x := by
  have hempty : x.isEmpty = false := by simpa using hx
  have hbreak : s.setBreak = s.setMargin := congrArg s.onto (h.setMargin _).setBreak_eq
  have htwice : s.setMargin.setMargin = s.setMargin := congrArg s.onto (Page.setMargin_setMargin ..)
  simp only [hbreak, State.print, hempty, Bool.false_eq_true, if_false, htwice]

/-- The opening of a tag is placed by the line ends in its gap or by those that are wanted. The gap
decides on nothing else but whether the tag starts a line. -/
theorem writeTagOpen_plain (hmax : 0 ≤ setup.style.maxPreserveNewlines) (h : s.page.Settled)
    (ht : t.text ≠ []) (hbrace : (Tag.ofToken setup.style t following).startsWith '{' = false)
    (hplain : endsRaw s t (Tag.ofToken setup.style t following) = false) :
    ∃ (c : Nat) (indents : Bool) (level : Nat) (stackAt : Bool → TagStack), ∀ before gap,
      let tag := Tag.ofToken setup.style t following
      let n := max (State.gapLines setup.style.toGeneral before (t.withGap gap)) c
      setup.writeTagOpen before (t.withGap gap) following s =
        setup.afterOpen t following
          { tag with language := languageOf t following tag, indentsContent := indents }
          ({ s with level, stack := stackAt (s.page.isEmpty || n != 0) }.onto
            (s.page.placed n { level, column := s.alignment }
              (State.gapSpace setup.style.toGeneral before (t.withGap gap)) t.text)) := by
  obtain ⟨c, indents, level, stackAt, hplace⟩ := placeTag_onto setup hbrace s t following
  refine ⟨c, indents, level, stackAt, fun before gap => ?_⟩
  let t' := t.withGap gap
  let space := State.gapSpace setup.style.toGeneral before t'
  let n := max (State.gapLines setup.style.toGeneral before t') c
  let s' : State := { s with level, stack := stackAt (s.page.isEmpty || n != 0) }
  have hput : setup.placeTag t' following (Tag.ofToken setup.style t' following)
      (State.printGap setup.style.toGeneral before t' s) = _ :=
    (congrArg _ (State.printGap_settled hmax h before t')).trans
      (hplace (p := s.page.flagged space false) h.begun h.unwrapped.raw _)
  have hprint : ∀ b, (if b = true then s'.onto ((s.page.flagged space false).lowered n)
      else (s'.onto ((s.page.flagged space false).lowered n)).setBreak).print t.text =
      s'.onto (s.page.placed n s'.margin space t.text) := by
    intro b
    rw [← State.print_onto h.unwrapped n _ false ht]
    split
    · rfl
    · exact print_setBreak ((h.unwrapped.flagged _ _).lowered n) ht
  rw [writeTagOpen_placed (t := t') hplain, hput]
  exact congrArg (setup.afterOpen t following { Tag.ofToken setup.style t following with
    language := languageOf t following (Tag.ofToken setup.style t following)
    indentsContent := indents }) (hprint _)

/-! ## Token after token -/

theorem writeAll_of_write {s' : State} (hkind : t.kind ≠ .eof)
    (h : setup.write before t following s = .ok s') :
    setup.writeAll before (t :: following) s = setup.writeAll t.kind following s' := by
  rw [writeAll, if_neg hkind, h]
  rfl

theorem write_tagOpen (hkind : t.kind = .tagOpen) (hlast : s.last ≠ .notUnderstood) :
    setup.write before t following s = .ok (setup.writeTagOpen before t following s) := by
  simp [write, hlast, hkind]

theorem write_tagClose (hkind : t.kind = .tagClose) (hlast : s.last ≠ .notUnderstood) :
    setup.write before t following s = .ok (setup.writeTagClose t s) := by
  simp [write, hlast, hkind]

theorem write_text (hkind : t.kind = .text) (hlast : s.last ≠ .notUnderstood)
    (hcomplete : s.lastTag.isComplete = true) :
    setup.write before t following s = setup.writeText before t s := by
  simp [write, hlast, hkind, hcomplete]

theorem writeAll_tagOpen (hkind : t.kind = .tagOpen) (hlast : s.last ≠ .notUnderstood) :
    setup.writeAll before (t :: following) s =
      setup.writeAll .tagOpen following (setup.writeTagOpen before t following s) := by
  rw [writeAll_of_write (by simp [hkind]) (write_tagOpen hkind hlast), hkind]

theorem writeAll_tagClose (hkind : t.kind = .tagClose) (hlast : s.last ≠ .notUnderstood) :
    setup.writeAll before (t :: following) s =
      setup.writeAll .tagClose following (setup.writeTagClose t s) := by
  rw [writeAll_of_write (by simp [hkind]) (write_tagClose hkind hlast), hkind]

theorem writeAll_text {s' : State} (hkind : t.kind = .text) (hlast : s.last ≠ .notUnderstood)
    (hcomplete : s.lastTag.isComplete = true) (h : setup.writeText before t s = .ok s') :
    setup.writeAll before (t :: following) s = setup.writeAll .text following s' := by
  rw [writeAll_of_write (by simp [hkind]) ((write_text hkind hlast hcomplete).trans h), hkind]

theorem writeAll_eof (hkind : t.kind = .eof) :
    setup.writeAll before (t :: following) s = .ok s := by
  rw [writeAll, if_pos hkind]

end Setup

end Html

end EmbeddedMarkup
