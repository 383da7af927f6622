import EmbeddedMarkup.Proofs.Html.Finished
import EmbeddedMarkup.Proofs.Html.Margins
import EmbeddedMarkup.Proofs.Html.Nesting

/-!
# White space between items in a line

Words and tags that stay in the line are written one after the other, and the blanks between two of
them are visible in the result. The formatter may replace them by others, by a line end for one, but
where there are none it puts none, and where there are some it leaves some.

This is the finest case of a text with other blanks: every pair of characters is bound
(`Bonds.all`). A tag that stays in the line asks for no line end and allows no break, and no open
element is spread over lines, so nothing but the gap of a token decides on the blanks before it
(`Setup.Flowing`).
-/

namespace EmbeddedMarkup

namespace Text

/-! ## Texts with blanks in the same places -/

/-- Every pair of characters stays next to each other or apart. -/
def Bonds.all : Bonds where
  keeps _ _ := True
  parts _ _ := True

theorem Bonds.allows_all {c d : Char} {was is : Bool} (h : Bonds.all.Allows (some c) d was is) :
    is = was := by
  obtain ⟨keep, part⟩ := h c rfl
  cases was with
  | false => exact keep trivial rfl
  | true =>
      cases is with
      | true => rfl
      | false => exact (part trivial rfl).symm

namespace Respaced

variable {B : Char → Bool} {β : Bonds} {q : Option Char} {g s o u : Text}

theorem split_first {c : Char} (h : Respaced B β q (g ++ c :: s) o) (hg : Blanks B g)
    (hc : B c = false) :
    ∃ g' o', o = g' ++ c :: o' ∧ Blanks B g' ∧ β.Allows q c (!g.isEmpty) (!g'.isEmpty) ∧
      Respaced B β (some c) s o' := by
  generalize hm : g ++ c :: s = m at h
  cases h with
  | blank hm' _ =>
      subst hm
      exact absurd (by simp) (hm'.not_mem hc)
  | @char _ g₁ g' s₁ o' c₁ hg₁ hg' hc₁ allowed rest =>
      obtain ⟨rfl, rfl, rfl⟩ := split_unique hm hg hg₁ hc hc₁
      exact ⟨g', o', rfl, hg', allowed, rest⟩

theorem split_word (hu₀ : u ≠ []) (hu : ∀ c ∈ u, B c = false) (hg : Blanks B g)
    (h : Respaced B .all q (g ++ (u ++ s)) o) :
    ∃ g' o', o = g' ++ (u ++ o') ∧ Blanks B g' ∧ (q ≠ none → g'.isEmpty = g.isEmpty) ∧
      Respaced B .all u.getLast? s o' := by
  induction u generalizing q g o with
  | nil => exact absurd rfl hu₀
  | cons c u ih =>
      obtain ⟨hc, hu⟩ := List.forall_mem_cons.mp hu
      obtain ⟨g', o', rfl, hg', allowed, rest⟩ := h.split_first hg hc
      have hsame : q ≠ none → g'.isEmpty = g.isEmpty := by
        intro hq
        obtain ⟨d, rfl⟩ := Option.ne_none_iff_exists'.mp hq
        simpa using Bonds.allows_all allowed
      cases u with
      | nil => exact ⟨g', o', rfl, hg', hsame, rest⟩
      | cons d u =>
          obtain ⟨g₁, o₁, rfl, -, hnone, rest'⟩ := ih (by simp) hu (g := []) .nil rest
          have hg₁ : g₁ = [] := by simpa using hnone (by simp)
          exact ⟨g', o₁, by rw [hg₁]; rfl, hg', hsame, by simpa using rest'⟩

theorem lines {eol : Text} (newline : B '\n' = true) (heol : Blanks B eol) (hne : eol ≠ [])
    (t : Text) (q : Option Char) : Respaced B β q t (Text.join eol (Text.splitOn '\n' t)) := by
  induction t generalizing q with
  | nil => exact .refl B β q []
  | cons c t ih =>
      by_cases hc : c = '\n'
      · subst hc
        rw [Text.join_splitOn_self]
        exact (ih none).after_blanks (v := ['\n']) (by simpa [Blanks] using newline) heol
          (by simp) hne q
      · rw [Text.join_splitOn_cons hc]
        exact (ih (some c)).prepend (t := [c]) (by simp) q

end Respaced

end Text

namespace Html

open Layout (Page)
open Text (Blanks Bonds Respaced)

/-- Items with other gaps around them, and blanks between two of them just where there were some. -/
structure SameItems (xs ys : List (Text × Item)) : Prop where
  items : ys.map Prod.snd = xs.map Prod.snd
  gaps : ∀ y ∈ ys, ∀ c ∈ y.1, isGapChar c = true
  between : ys.tail.map (fun y => y.1.isEmpty) = xs.tail.map fun x => x.1.isEmpty

theorem exists_sameItems {xs : List (Text × Item)} {last out : Text} {q : Option Char}
    (hxs : ∀ x ∈ xs, (∀ c ∈ x.1, isGapChar c = true) ∧ x.2.text ≠ [] ∧ ∀ c ∈ x.2.text,
      isGapChar c = false)
    (hlast : ∀ c ∈ last, isGapChar c = true) (h : Respaced isGapChar .all q (spell xs last) out) :
    ∃ ys last', out = spell ys last' ∧ SameItems xs ys ∧ (∀ c ∈ last', isGapChar c = true) ∧
      (q ≠ none → ys.map (fun y => y.1.isEmpty) = xs.map fun x => x.1.isEmpty) := by
  induction xs generalizing q out with
  | nil => exact ⟨[], out, rfl, ⟨rfl, by simp, rfl⟩, h.blanks_right hlast, fun _ => rfl⟩
  | cons x xs ih =>
      obtain ⟨⟨hg, hne, hx⟩, hxs⟩ := List.forall_mem_cons.mp hxs
      obtain ⟨g', o', rfl, hg', hfirst, rest⟩ := h.split_word hne hx hg
      obtain ⟨ys, last', rfl, same, hlast', hall⟩ := ih hxs rest
      have hbetween := hall (by simpa using hne)
      refine ⟨(g', x.2) :: ys, last', rfl, ⟨?_, ?_, hbetween⟩, hlast', fun hq => ?_⟩
      · rw [List.map_cons, List.map_cons, same.items]
      · exact List.forall_mem_cons.mpr ⟨hg', same.gaps⟩
      · rw [List.map_cons, List.map_cons, hfirst hq, hbetween]

/-! ## Tags that stay in the line -/

/-- A start tag or an end tag that stays in the line. -/
structure Mark.Inline (style : Style.Markup) (m : Mark) : Prop where
  ordinary : m.Ordinary style
  closing : m.closing = ['>']
  inline : (style.inline.has m.name || (style.inlineCustomElements && m.name.contains '-')) = true
  extra : style.extraLiners.has m.check = false

/-- The open elements stay in the line, and none is spread over lines. -/
def TagStack.Inline (stack : TagStack) : Prop :=
  ∀ f ∈ stack, f.isInline = true ∧ f.isMultiline = false

namespace TagStack.Inline

variable {stack : TagStack} {found : Frame × TagStack}

theorem find? {names stops : List Text} (h : stack.Inline)
    (hfind : stack.find? names stops = some found) :
    found.1.isMultiline = false ∧ TagStack.Inline found.2 := by
  induction stack with
  | nil => cases hfind
  | cons f rest ih =>
      obtain ⟨hf, hrest⟩ := List.forall_mem_cons.mp h
      rw [TagStack.find?] at hfind
      split at hfind
      · obtain rfl := Option.some.inj hfind
        exact ⟨hf.2, hrest⟩
      · split at hfind
        · cases hfind
        · exact ih hrest hfind

theorem impliedEnd? {name : Text} (h : stack.Inline) (hfind : stack.impliedEnd? name = some found) :
    TagStack.Inline found.2 := by
  rw [TagStack.impliedEnd?] at hfind
  split at hfind
  · cases hfind
  · obtain ⟨e, -, he⟩ := List.exists_of_findSome?_eq_some hfind
    exact (h.find? he).2

end TagStack.Inline

namespace Setup

variable {setup : Setup} {s : State} {before : Kind} {t o c : Token} {more : List Token} {m : Mark}
  {g : Text}
  {tag : Tag} {ps : List (Lexeme × Bool)} {σ : Seam}

theorem noteMultiline_inline (htag : tag.isInline = true) (hstack : s.stack.Inline) (k : Nat) :
    noteMultiline tag k s = s := by
  have hnone :
      (s.stack[k]?.any fun parent => !((tag.isInline || tag.isUnformatted) && parent.isInline)) =
          false := by
    cases hparent : s.stack[k]? with
    | none => rfl
    | some parent => simp [htag, (hstack parent (List.mem_of_getElem? hparent)).1]
  rw [noteMultiline_eq, noted, hnone, Bool.and_false]
  rfl

theorem placeExtraLine_inline (h : setup.style.extraLiners.has tag.check = false) :
    setup.placeExtraLine tag s = s := by
  simp [placeExtraLine, h]

theorem placeEmpty_inline (htag : tag.isInline = true) (hangle : tag.startsWith '{' = false)
    (hstack : s.stack.Inline) : placeEmpty tag s = (tag, s) := by
  simp only [placeEmpty, hangle, htag, Bool.false_and, Bool.true_or, Bool.false_eq_true, if_false,
    if_true, noteMultiline_inline htag hstack]
  split <;> rfl

theorem placeEnd_inline (htag : tag.isInline = true) {started : Option Frame}
    (hstarted : ∀ f, started = some f → f.isMultiline = false) : placeEnd tag started s = s := by
  have hmultiline : started.any (·.isMultiline) = false := by
    cases started with
    | none => rfl
    | some f => exact hstarted f rfl
  simp [placeEnd, hmultiline, htag]

theorem placeStart_inline (htag : tag.isInline = true) (hstack : s.stack.Inline) :
    setup.placeStart tag s = ({ tag with indentsContent := setup.indents tag }, s) := by
  have hstart : setup.placeStart tag s = ({ tag with indentsContent := setup.indents tag },
      noteMultiline tag 1 (if startsLine tag s = true then s.newline false else s)) := rfl
  rw [hstart, startsLine, htag, Bool.true_or, Bool.not_true, Bool.false_and,
    if_neg Bool.false_ne_true, noteMultiline_inline htag hstack]

theorem placeTag_inline (hm : m.Inline setup.style) (t : Token) (more : List Token) (i : Nat)
    (hstack : s.stack.Inline) :
    ∃ tag level stack, setup.placeTag t more (m.tag setup.style i) s =
      (tag, { s with level, stack }) ∧ TagStack.Inline stack ∧ OrdinaryTag tag ∧
      tag.isInline = true ∧ tag.text = m.opening := by
  have hordinary := ordinaryTag_mark hm.ordinary i
  have hinline : (m.tag setup.style i).isInline = true := hm.inline
  have hextra : setup.style.extraLiners.has (m.tag setup.style i).check = false := hm.extra
  by_cases hempty : (m.tag setup.style i).isEmpty = true
  · refine ⟨m.tag setup.style i, s.level, s.stack, ?_, hstack, hordinary, hinline, rfl⟩
    rw [placeTag_eq (moveOnStack_empty hempty), if_pos hempty, placeExtraLine_inline hextra,
      placeEmpty_inline hinline rfl hstack]
  · by_cases hend : (m.tag setup.style i).isEnd = true
    · have hmove : moveOnStack t more (m.tag setup.style i) s = _ :=
        moveOnStack_end (by simpa using hempty) hend
      have hplace : ∀ {started : Option Frame} {level : Nat} {stack : TagStack},
          moveOnStack t more (m.tag setup.style i) s =
          (started, m.tag setup.style i, { s with level, stack }) →
          (∀ f, started = some f → f.isMultiline = false) →
          setup.placeTag t more (m.tag setup.style i) s =
          (m.tag setup.style i, { s with level, stack }) := by
        intro started level stack hmove hstarted
        rw [placeTag_eq hmove, if_neg hempty, if_pos hend, placeExtraLine_inline hextra,
          placeEnd_inline hinline hstarted]
      cases hfind : s.stack.find? [(m.tag setup.style i).name] [] with
      | none =>
          rw [hfind] at hmove
          exact ⟨_, s.level, s.stack, hplace hmove (by simp), hstack, hordinary, hinline, rfl⟩
      | some found =>
          rw [hfind] at hmove
          obtain ⟨hflat, hfound⟩ := hstack.find? hfind
          exact ⟨_, found.1.level, found.2, hplace hmove (fun f hf => Option.some.inj hf ▸ hflat),
            hfound, hordinary, hinline, rfl⟩
    · have himplied : ∃ level stack, endImplied (m.tag setup.style i) s = { s with level, stack } ∧
          TagStack.Inline stack := by
        unfold endImplied
        cases hfind : s.stack.impliedEnd? (m.tag setup.style i).name with
        | none => exact ⟨s.level, s.stack, rfl, hstack⟩
        | some found =>
            refine ⟨found.1.level, found.2, ?_, hstack.impliedEnd? hfind⟩
            rw [Option.elim_some, if_pos hinline]
            rfl
      obtain ⟨level, stack, hs, hinner⟩ := himplied
      let stack' : TagStack := frameOf (m.tag setup.style i) level :: stack
      have hstack' : stack'.Inline := List.forall_mem_cons.mpr ⟨⟨hinline, rfl⟩, hinner⟩
      have hmove : moveOnStack t more (m.tag setup.style i) s =
          (none, m.tag setup.style i, { s with level, stack := stack' }) := by
        rw [moveOnStack_start (by simpa using hempty) (by simpa using hend),
          languageOf_mark hm.ordinary, hs]
        rfl
      refine ⟨{ m.tag setup.style i with indentsContent := setup.indents (m.tag setup.style i) },
        level, stack', ?_, hstack', ⟨hordinary.unformatted, hordinary.content, rfl⟩, hinline, rfl⟩
      rw [placeTag_eq hmove, if_neg hempty, if_neg hend, placeExtraLine_inline hextra]
      exact placeStart_inline hinline hstack'

/-! ## Writing items -/

/-- Between two items in a line: the page holds what was written, with blanks just where there were
some. -/
structure Flowing (s : State) (ps : List (Lexeme × Bool)) (σ : Seam) : Prop where
  resting : Resting s
  stack : s.stack.Inline
  page : Holds isGapChar .all s.page ps σ []
  space : s.page.spaceBefore = false
  fresh : σ.apart = false ∧ σ.closed = false

theorem flowing_print (hmax : 0 ≤ setup.style.maxPreserveNewlines)
    (h : Holds isGapChar .all s.page ps σ []) (space : s.page.spaceBefore = false)
    (fresh : σ.apart = false ∧ σ.closed = false) (solid : Solid t.text) (before : Kind) (s' : State)
    (hs' : s'.page = (State.printGap setup.style.toGeneral before t s).page) :
    Holds isGapChar .all (s'.print t.text).page (ps ++ [(t.toLexeme, false)])
      (.after t.toLexeme false) [] ∧ (s'.print t.text).page.spaceBefore = false := by
  obtain ⟨σ', h', -, gapped⟩ := State.holds_printGap (t := t) setup.style.toGeneral before h space
    fun hneg => absurd hmax (by omega)
  rw [← hs'] at h' gapped
  have takes : (σ'.due s'.page).Takes .all t.toLexeme :=
    gapped.takes (fresh.1.trans fresh.2.symm) (by simp [fresh.2])
  obtain ⟨h₁, h₂, -⟩ := State.holds_print (h'.weaken _) solid takes false
  exact ⟨h₁, h₂⟩

theorem flowing_word (hmax : 0 ≤ setup.style.maxPreserveNewlines) (h : Flowing s ps σ)
    (solid : Solid t.text) (before : Kind) :
    ∃ s', setup.writeText before t s = .ok s' ∧
      Flowing s' (ps ++ [(t.toLexeme, false)]) (.after t.toLexeme false) := by
  obtain ⟨hpage, hspace⟩ := flowing_print hmax h.page h.space h.fresh solid before
    (State.printGap setup.style.toGeneral before t s) rfl
  have hwrite : setup.writeText before t s =
      .ok { (State.printGap setup.style.toGeneral before t s).print t.text with
          last := .content } := by
    simp only [writeText, h.resting.tag.language, h.resting.tag.unformatted, h.resting.tag.content]
    rfl
  obtain ⟨p, hp⟩ := State.exists_onto_printGap setup.style.toGeneral before t s
  obtain ⟨q, hq⟩ := State.exists_onto_print (s.onto p) t.text
  have hstate : (State.printGap setup.style.toGeneral before t s).print t.text = s.onto q := by
    rw [hp, hq]
    rfl
  rw [hstate] at hpage hspace hwrite
  exact ⟨_, hwrite, ⟨Written.noConfusion, h.resting.complete, h.resting.tag⟩, h.stack, hpage,
    hspace, rfl, rfl⟩

theorem flowing_opening (hmax : 0 ≤ setup.style.maxPreserveNewlines) (h : Flowing s ps σ)
    (hm : m.Inline setup.style) (hlinked : Linked (o :: c :: more))
    (ho : o.toLexeme = m.openLexeme g) (hc : c.toLexeme = m.closeLexeme) (before : Kind) :
    let s' := setup.writeTagOpen before o (c :: more) s
    Holds isGapChar .all s'.page (ps ++ [(o.toLexeme, false)]) (.after o.toLexeme false) [] ∧
      s'.page.spaceBefore = false ∧ s'.stack.Inline ∧ OrdinaryTag s'.lastTag ∧
      s'.lastTag.isInline = true ∧ s'.lastTag.text = m.opening ∧ s'.last = .tagOpen := by
  have htag : Tag.ofToken setup.style o (c :: more) = m.tag setup.style o.index :=
    hlinked.ofToken_eq hm.ordinary.name ho hc
  have hplain : endsRaw s o (Tag.ofToken setup.style o (c :: more)) = false := by
    simp [endsRaw, h.resting.tag.unformatted, h.resting.tag.content]
  have hopening : o.text = m.opening := congrArg Lexeme.text ho
  have solid : Solid o.text := hopening ▸ ⟨'<', List.mem_cons_self .., rfl⟩
  obtain ⟨p, hp⟩ := State.exists_onto_printGap setup.style.toGeneral before o s
  obtain ⟨tag, level, stack, hplace, hstack, hordinary, hinline, htext⟩ :=
    placeTag_inline (s := State.printGap setup.style.toGeneral before o s) hm o (c :: more) o.index
      (by rw [hp]; exact h.stack)
  intro s'
  have hwrite : s' = _ := writeTagOpen_placed hplain
  rw [htag, hplace] at hwrite
  simp only [hinline, if_true] at hwrite
  obtain ⟨hpage, hspace⟩ := flowing_print hmax h.page h.space h.fresh solid before
    { State.printGap setup.style.toGeneral before o s with level, stack } rfl
  obtain ⟨q, hq⟩ :=
    State.exists_onto_print { State.printGap setup.style.toGeneral before o s with level, stack }
      o.text
  rw [hq] at hpage hspace hwrite
  have hstack' : s'.stack = stack := by
    rw [hwrite]
    unfold afterOpen
    dsimp only
    split <;> rfl
  have hpage' : s'.page = q := (congrArg State.page hwrite).trans (page_afterOpen ..)
  rw [hpage', hstack']
  rw [hwrite]
  exact ⟨hpage, hspace, hstack, ⟨hordinary.unformatted, hordinary.content, hordinary.language⟩,
    hinline, htext, rfl⟩

theorem afterClose_inline (htag : tag.isInline = true) (s : State) :
    (afterClose tag s).page = s.page ∧ (afterClose tag s).stack = s.stack := by
  unfold afterClose
  extract_lets asItIs indents s₁ tag' s₂
  have hs₁ : s₁.page = s.page ∧ s₁.stack = s.stack := by
    simp only [s₁]
    split <;> exact ⟨rfl, rfl⟩
  have htag' : tag'.isInline = true := by
    simp only [tag']
    split <;> exact htag
  have hs₂ : s₂ = s₁ := by simp only [s₂, htag', Bool.true_or, if_true]
  rw [hs₂]
  exact hs₁

theorem flowing_closing (hwrap : setup.style.wrapAttributes ≠ .forceExpandMultiline)
    (hpage : Holds isGapChar .all s.page ps σ []) (fresh : σ.apart = false ∧ σ.closed = false)
    (hstack : s.stack.Inline) (htag : OrdinaryTag s.lastTag) (hinline : s.lastTag.isInline = true)
    (hangle : s.lastTag.startsWith '<' = true) (hc : c.text = ['>'])
    (hgap : c.gap.isPresent = false) :
    Flowing (setup.writeTagClose c s) (ps ++ [(c.toLexeme, false)]) (.after c.toLexeme false) := by
  let s₀ : State := ({ s with alignment := 0 }.setSpace c.gap.isPresent true).setSpace false true
  have hprint : setup.printClose c s = s₀.print c.text := by
    have hslash : c.startsWith '/' = false := by simp [Lexeme.startsWith, hc]
    have hforced : (setup.style.wrapAttributes == .forceExpandMultiline) = false := by
      simpa using hwrap
    simp only [printClose, htag.unformatted, hangle, hslash, hforced, Bool.false_and,
      Bool.false_eq_true, if_false, if_true]
    rfl
  have h₀ : Holds isGapChar .all s₀.page ps σ [] := hpage.setSpace false true
  have solid : Solid c.text := hc ▸ ⟨'>', List.mem_cons_self .., rfl⟩
  have gapped : Seam.Gapped .all σ (σ.due s₀.page) c.toLexeme := State.gapped_due h₀ hgap.symm
  have takes := gapped.takes (fresh.1.trans fresh.2.symm) (by simp [fresh.2])
  obtain ⟨h₁, h₂, -⟩ := State.holds_print (h₀.weaken _) solid takes false
  obtain ⟨q, hq⟩ := State.exists_onto_print s₀ c.text
  rw [hq] at hprint h₁ h₂
  obtain ⟨hrest, -, -⟩ := writeTagClose_mark setup htag c
  have hclose := writeTagClose_eq setup c s
  rw [hprint] at hclose
  have hinline' : ({ s.lastTag with isComplete := true } : Tag).isInline = true := hinline
  obtain ⟨hpage', hstack'⟩ := afterClose_inline hinline' (s₀.onto q)
  rw [← hclose] at hpage' hstack'
  refine ⟨hrest, hstack' ▸ hstack, ?_, ?_, rfl, rfl⟩
  · exact hpage' ▸ h₁
  · exact hpage' ▸ h₂

end Setup

def itemLexemes (xs : List (Text × Item)) : List Lexeme := xs.flatMap fun x => x.2.lexemes x.1

theorem cut_spell {style : Style.Markup} {afterWord : Bool} {xs : List (Text × Item)} {last : Text}
    (h : Separated style afterWord xs last) : Cut isGapChar (itemLexemes xs) (spell xs last) := by
  induction xs generalizing afterWord with
  | nil => exact .nil h
  | cons x xs ih =>
      obtain ⟨g, x⟩ := x
      cases x with
      | word u =>
          obtain ⟨hg, hu, -, hxs⟩ := h
          exact .cons (l := { kind := .text, text := u, gap := Gap.ofText {} g }) hg
            (Gap.ofText_isPresent g) hu.nonempty
            (ih hxs)
      | mark m =>
          obtain ⟨hg, -, hxs⟩ := h
          have hclosing : m.closing ≠ [] := by cases m <;> simp [Mark.closing]
          rw [spell, Item.text, Mark.text, List.append_assoc]
          exact .cons (l := m.openLexeme g) hg (Gap.ofText_isPresent g)
            (by simp [Mark.openLexeme, Mark.opening])
            (.cons (l := m.closeLexeme) (g := []) .nil rfl hclosing (ih hxs))

theorem holds_items (setup : Setup) {s : State} {xs : List (Text × Item)} {last : Text}
    {afterWord : Bool} {ts : List Token} {ps : List (Lexeme × Bool)} {σ : Seam} (before : Kind)
    (hmax : 0 ≤ setup.style.maxPreserveNewlines)
    (hwrap : setup.style.wrapAttributes ≠ .forceExpandMultiline)
    (h : Separated setup.style afterWord xs last) (hmarks : ∀ m ∈ marks xs, m.Inline setup.style)
    (hts : ts.map Token.toLexeme = lexemesOf xs last) (hlinked : Linked ts)
    (hs : Setup.Flowing s ps σ) :
    ∃ s' σ', setup.writeAll before ts s = .ok s' ∧
      Holds isGapChar .all s'.page (ps ++ (itemLexemes xs).map fun l => (l, false)) σ' [] := by
  induction xs generalizing before ts s ps σ afterWord with
  | nil =>
      obtain ⟨e, rfl, he⟩ := List.map_eq_singleton_iff.mp hts
      exact ⟨s, σ,
        Setup.writeAll_eof (congrArg Lexeme.kind he), by simpa [itemLexemes] using hs.page⟩
  | cons x xs ih =>
      obtain ⟨g, x⟩ := x
      cases x with
      | word u =>
          obtain ⟨-, hu, -, hxs⟩ := h
          obtain ⟨t, ts, rfl, ht, hts⟩ := List.map_eq_cons_iff.mp hts
          have hkind : t.kind = .text := congrArg Lexeme.kind ht
          have htext : t.text = u := congrArg Lexeme.text ht
          have solid : Solid t.text := by
            obtain ⟨c, u, rfl⟩ := List.exists_cons_of_ne_nil hu.nonempty
            exact htext ▸ ⟨c, List.mem_cons_self .., (hu.chars c (List.mem_cons_self ..)).1⟩
          obtain ⟨s₁, hs₁, hflow⟩ := Setup.flowing_word hmax hs solid before
          obtain ⟨s', σ', hs', hholds⟩ := ih .text hxs hmarks hts hlinked.tail hflow
          refine ⟨s', σ', ?_, ?_⟩
          · rw [Setup.writeAll_text hkind hs.resting.understood hs.resting.complete hs₁]
            exact hs'
          · rw [ht, List.append_assoc] at hholds
            exact hholds
      | mark m =>
          obtain ⟨-, -, hxs⟩ := h
          obtain ⟨o, ts, rfl, ho, hts⟩ := List.map_eq_cons_iff.mp hts
          obtain ⟨c, ts, rfl, hc, hts⟩ := List.map_eq_cons_iff.mp hts
          have hm : m.Inline setup.style := hmarks m (List.mem_cons_self ..)
          obtain ⟨hpage, -, hstack, hordinary, hinline, htext, hlast⟩ :=
            Setup.flowing_opening hmax hs hm hlinked ho hc before
          have hangle :
              (setup.writeTagOpen before o (c :: ts) s).lastTag.startsWith '<' = true := by
            rw [Tag.startsWith, htext]
            rfl
          have hflow := Setup.flowing_closing hwrap hpage ⟨rfl, rfl⟩ hstack hordinary hinline hangle
            ((congrArg Lexeme.text hc).trans hm.closing) (congrArg (fun l => l.gap.isPresent) hc)
          obtain ⟨s', σ', hs', hholds⟩ :=
            ih .tagClose hxs (fun n hn => hmarks n (List.mem_cons_of_mem _ hn)) hts
            hlinked.tail.tail hflow
          refine ⟨s', σ', ?_, ?_⟩
          · rw [Setup.writeAll_tagOpen (congrArg Lexeme.kind ho) hs.resting.understood,
              Setup.writeAll_tagClose (congrArg Lexeme.kind hc)
              (by rw [hlast]; exact Written.noConfusion)]
            exact hs'
          · rw [ho, hc, List.append_assoc, List.append_assoc] at hholds
            exact hholds

/-! ## Formatting items -/

/-- What is asked of a style for items that stay in the line. -/
structure KeepsLine (style : Style.Markup) : Prop where
  plain : PlainStyle style
  enabled : style.disabled = false
  checked : Page.checkStyle style.toGeneral = .ok ()
  size : 0 ≤ style.indentSize
  aligned : 0 ≤ style.wrapAttributesIndentSize
  kept : 0 ≤ style.maxPreserveNewlines
  wrap : style.wrapAttributes ≠ .forceExpandMultiline
  eol : style.eol = "auto".toList
  indentChar : ∀ c ∈ style.indentChar, isGapChar c = true

section

variable {style : Style.Markup} {xs : List (Text × Item)} {last : Text}

theorem exists_separated (hxs : ∀ x ∈ xs, (∀ c ∈ x.1, isGapChar c = true) ∧ x.2.Ordinary style)
    (hlast : ∀ c ∈ last, isGapChar c = true) :
    ∃ xs' last', Separated style false xs' last' ∧ spell xs' last' = spell xs last ∧
      marks xs' = marks xs := by
  have hgap : ∀ {g : Text}, (∀ c ∈ g, isGapChar c = true) → ∀ c ∈ g, c ≠ '<' ∧ c ≠ '{' := by
    intro g hg c hc
    constructor
    · rintro rfl
      exact absurd (hg _ hc) (by decide)
    · rintro rfl
      exact absurd (hg _ hc) (by decide)
  induction xs with
  | nil => exact ⟨[], last, hlast, rfl, rfl⟩
  | cons x xs ih =>
      obtain ⟨g, x⟩ := x
      obtain ⟨⟨hg, hx⟩, hxs⟩ := List.forall_mem_cons.mp hxs
      obtain ⟨xs₁, last₁, h₁, hspell₁, hmarks₁⟩ := ih hxs
      cases x with
      | word u =>
          have hword : ∀ c ∈ g ++ u, c ≠ '<' ∧ c ≠ '{' :=
            List.forall_mem_append.mpr ⟨hgap hg, fun c hc => (hx.chars c hc).2⟩
          obtain ⟨xs₂, last₂, h₂, hspell₂, hmarks₂⟩ := h₁.exists_append hword
          exact ⟨xs₂, last₂, h₂, by rw [hspell₂, hspell₁, List.append_assoc]; rfl,
            hmarks₂.trans hmarks₁⟩
      | mark m =>
          exact ⟨(g, .mark m) :: xs₁, last₁, ⟨hg, hx, h₁⟩, by rw [spell, hspell₁]; rfl,
            congrArg (m :: ·) hmarks₁⟩

theorem blanks_lineEndFor (heol : style.eol = "auto".toList) (t : Text) :
    lineEndFor style.toGeneral t ≠ [] ∧ Blanks isGapChar (lineEndFor style.toGeneral t) := by
  rw [lineEndFor, if_pos heol]
  cases hend : Text.firstLineEnd? t with
  | none => exact ⟨by simp, List.all_eq_true.mp (by decide)⟩
  | some e => exact Text.blank_of_mem_lineEnds (Text.firstLineEnd?_mem hend)

/-- Items that stay in the line have blanks between them after formatting just where they had some
before. -/
theorem format_items (h : KeepsLine style) (formatters : Formatters)
    (hxs : ∀ x ∈ xs, (∀ c ∈ x.1, isGapChar c = true) ∧ x.2.Ordinary style)
    (hmarks : ∀ m ∈ marks xs, m.Inline style) (hlast : ∀ c ∈ last, isGapChar c = true) :
    ∃ out ys last', format style formatters (spell xs last) = .ok out ∧ out.text = spell ys last' ∧
      SameItems xs ys ∧ ∀ c ∈ last', isGapChar c = true := by
  obtain ⟨xs', last', hsep, hspell, hsame⟩ := exists_separated hxs hlast
  let t := spell xs last
  have hunified : Text.unifyLineEnds t = spell (unified xs') (Text.unifyLineEnds last') := by
    rw [← unifyLineEnds_spell hsep, hspell]
  obtain ⟨ts, hts, hlexemes, hlinked⟩ := ofText_spell h.plain hsep.unified
  let base := (Text.unifyLineEnds t).takeWhile fun c => c == '\t' || c == ' '
  have hbase : Blanks isGapChar base := (blanks_takeWhile _).mono fun _ => gapChar_of_spacing
  have hstart : Setup.Flowing { page := .ofStyle style.toGeneral base } [] {} :=
    ⟨⟨Written.noConfusion, rfl, ⟨rfl, rfl, rfl⟩⟩, by simp [TagStack.Inline],
      .ofStyle h.indentChar hbase, rfl, rfl, rfl⟩
  obtain ⟨s, σ, hs, hholds⟩ :=
    holds_items (.ofText style formatters t) .start h.kept h.wrap hsep.unified
    (by rwa [marks_unified, hsame]) hlexemes hlinked hstart
  have hformat : format style formatters t = _ :=
    formatWith_of_written h.enabled h.checked h.size h.aligned (hunified ▸ hts) rfl hs
  -- With plain line ends the text of the page is the source with other blanks.
  have hcode :=
    Page.code_eq (Setup.fair_writeAll h.aligned (fair_ofStyle h.size base) hs).page ['\n']
  rw [Text.join_splitOn] at hcode
  have hcut :
      Cut isGapChar (([] ++ (itemLexemes (unified xs')).map fun l => (l, false)).map Prod.fst)
      (Text.unifyLineEnds t) := by
    rw [hunified, List.nil_append, List.map_map,
      show Prod.fst ∘ (fun l : Lexeme => (l, false)) = id from rfl, List.map_id]
    exact cut_spell hsep.unified
  have hpage := hholds.code_respaced (fun c hc => gapChar_of_spacing hc) hcode hcut
  obtain ⟨heol, hblank⟩ := blanks_lineEndFor h.eol t
  have hlines := Respaced.lines (β := .all) rfl hblank heol s.page.finish.drawn none
  have hall := ((Respaced.unifyLineEnds rfl rfl t none).trans hpage).trans hlines
  obtain ⟨ys, last'', hout, hitems, hlast'', -⟩ := exists_sameItems
    (fun x hx => ⟨(hxs x hx).1, (hxs x hx).2.text_ne_nil, (hxs x hx).2.not_isGapChar⟩) hlast hall
  exact ⟨_, ys, last'', hformat, hout, hitems, hlast''⟩

end

/-- A word, or the start tag or end tag of an element that stays in the line by default. -/
def Item.InLine : Item → Prop
  | word u => IsWord u
  | mark (.start n) => IsName n ∧ Text.lower n ∈ Style.Markup.defaultInline ∧
      Text.lower n ≠ "textarea".toList
  | mark (.stop n) => IsName n ∧ Text.lower n ∈ Style.Markup.defaultInline ∧
      Text.lower n ≠ "textarea".toList
  | mark (.single _) => False

/-- The settings of line breaking, with all else as it is by default. -/
def lineSettings (wrapLineLength : Int) (preserveNewlines : Bool) (maxPreserveNewlines : Int) :
    Style.Settings :=
  [("wrap_line_length".toList, .int wrapLineLength),
    ("preserve_newlines".toList, .bool preserveNewlines),
    ("max_preserve_newlines".toList, .int maxPreserveNewlines)]

theorem keepsLine_settings (w : Int) (b : Bool) {n : Int} (hn : 0 ≤ n) :
    ∃ style, Style.Markup.ofSettings (lineSettings w b n) = .ok style ∧ KeepsLine style ∧
      style.inline = Style.Markup.namesOf Style.Markup.defaultInline ∧ style.unformatted = [] ∧
      style.contentUnformatted = Style.Markup.namesOf (Text.lits ["pre", "textarea"]) ∧
      style.extraLiners = Style.Markup.namesOf (Text.lits ["head", "body", "/html"]) := by
  refine ⟨_, rfl, ?_, rfl, rfl, rfl, rfl⟩
  exact
    { plain := ⟨rfl, rfl⟩
      enabled := rfl
      checked := rfl
      size := show (0 : Int) ≤ 4 by decide
      aligned := show (0 : Int) ≤ 4 by decide
      kept := by
        change 0 ≤ if b = true then n else 0
        split
        · exact hn
        · exact Int.le_refl 0
      wrap := show Style.WrapAttributes.auto ≠ .forceExpandMultiline by decide
      eol := rfl
      indentChar := show ∀ c ∈ [' '], isGapChar c = true from List.all_eq_true.mp (by decide) }

/-- What the default lists say about the elements that stay in the line. -/
theorem defaultInline_lists : ∀ n ∈ Style.Markup.defaultInline, n ≠ "textarea".toList →
    (n ≠ "script".toList ∧ n ≠ "style".toList) ∧
    Style.Names.has (Style.Markup.namesOf Style.Markup.defaultInline) n = true ∧
    (∀ k ∈ [n, '/' :: n],
      Style.Names.has (Style.Markup.namesOf (Text.lits ["pre", "textarea"])) k = false ∧
      Style.Names.has (Style.Markup.namesOf (Text.lits ["head", "body", "/html"])) k = false) := by
  decide

/-- With default settings but for line breaking, two items of a line have white space between them
in the result just if they have some in the text, and there is none inside an item. -/
theorem formatBy_keeps_gaps (w : Int) (b : Bool) {n : Int} (hn : 0 ≤ n) (formatters : Formatters)
    {xs : List (Text × Item)} {last : Text}
    (hxs : ∀ x ∈ xs, (∀ c ∈ x.1, isGapChar c = true) ∧ x.2.InLine)
    (hlast : ∀ c ∈ last, isGapChar c = true) :
    ∃ out ys last', formatBy (lineSettings w b n) formatters (spell xs last) = .ok out ∧
      out.text = spell ys last' ∧ SameItems xs ys ∧ ∀ c ∈ last', isGapChar c = true := by
  obtain ⟨style, hstyle, hkeeps, hinline, hunformatted, hcontent, hextra⟩ :=
    keepsLine_settings w b hn
  have hmark : ∀ m, (Item.mark m).InLine → m.Inline style := by
    intro m hm
    cases m with
    | start k =>
        obtain ⟨hname, hmem, htextarea⟩ := hm
        obtain ⟨hscript, hhas, hlists⟩ := defaultInline_lists _ hmem htextarea
        obtain ⟨hraw, hline⟩ := hlists (Text.lower k) (by simp)
        refine ⟨⟨hname, hscript, ?_, hcontent ▸ hraw⟩, rfl, ?_, hextra ▸ hline⟩
        · rw [hunformatted]
          rfl
        · rw [hinline, show (Mark.start k).name = Text.lower k from rfl, hhas, Bool.true_or]
    | stop k =>
        obtain ⟨hname, hmem, htextarea⟩ := hm
        obtain ⟨-, hhas, hlists⟩ := defaultInline_lists _ hmem htextarea
        obtain ⟨hraw, hline⟩ := hlists ('/' :: Text.lower k) (by simp)
        refine ⟨⟨hname, by simp [Mark.check], ?_, hcontent ▸ hraw⟩, rfl, ?_, hextra ▸ hline⟩
        · rw [hunformatted]
          rfl
        · rw [hinline, show (Mark.stop k).name = Text.lower k from rfl, hhas, Bool.true_or]
    | single k => exact absurd hm id
  have hitem : ∀ x : Item, x.InLine → x.Ordinary style := by
    intro x hx
    cases x with
    | word u => exact hx
    | mark m => exact (hmark m hx).ordinary
  have hmarks : ∀ m ∈ marks xs, m.Inline style := by
    intro m hm
    obtain ⟨⟨g, x⟩, hx, hxm⟩ := List.mem_filterMap.mp hm
    cases x with
    | word u => cases hxm
    | mark m' =>
        obtain rfl := Option.some.inj hxm
        exact hmark m' (hxs _ hx).2
  obtain ⟨out, ys, last', hout, hrest⟩ := format_items hkeeps formatters
    (fun x hx => ⟨(hxs x hx).1, hitem x.2 (hxs x hx).2⟩) hmarks hlast
  refine ⟨out, ys, last', ?_, hrest⟩
  rw [formatBy, hstyle]
  exact hout

/-- Unbalanced tags in both cases, words that stand next to each other, and lines that are broken
everywhere. -/
theorem formatBy_keeps_gaps_unbalanced :
    let xs : List (Text × Item) := [(" ".toList, .word "a".toList), ([], .mark (.start "B".toList)),
      ("\r\n\r\n".toList, .word "c>".toList), ([], .word "d".toList),
      ("\t".toList, .mark (.stop "i".toList)), ([], .mark (.stop "b".toList)),
      ([], .word "e".toList)]
    let last := " \n".toList
    spell xs last = " a<B>\r\n\r\nc>d\t</i></b>e \n".toList ∧
      ∃ out ys last', formatBy (lineSettings 1 true 0) {} (spell xs last) = .ok out ∧
      out.text = spell ys last' ∧
        ys.map Prod.snd = xs.map Prod.snd ∧
        ys.tail.map (fun y => y.1.isEmpty) = [true, false, true, false, true, true] ∧
        (∀ y ∈ ys, ∀ c ∈ y.1, isGapChar c = true) ∧ ∀ c ∈ last', isGapChar c = true := by
  intro xs last
  have hitems : ∀ x ∈ xs, x.2.InLine := by
    refine List.forall_mem_cons.mpr ⟨IsWord.of_all (by simp) (by decide), ?_⟩
    refine List.forall_mem_cons.mpr
      ⟨⟨⟨⟨'B', rfl, rfl⟩, List.all_eq_true.mp (by decide)⟩, by decide, by decide⟩, ?_⟩
    refine List.forall_mem_cons.mpr ⟨IsWord.of_all (by simp) (by decide), ?_⟩
    refine List.forall_mem_cons.mpr ⟨IsWord.of_all (by simp) (by decide), ?_⟩
    refine List.forall_mem_cons.mpr
      ⟨⟨⟨⟨'i', rfl, rfl⟩, List.all_eq_true.mp (by decide)⟩, by decide, by decide⟩, ?_⟩
    refine List.forall_mem_cons.mpr
      ⟨⟨⟨⟨'b', rfl, rfl⟩, List.all_eq_true.mp (by decide)⟩, by decide, by decide⟩, ?_⟩
    refine List.forall_mem_cons.mpr ⟨IsWord.of_all (by simp) (by decide), by simp⟩
  have hgaps : (xs.all fun x => x.1.all isGapChar) = true := by decide
  have hxs : ∀ x ∈ xs, (∀ c ∈ x.1, isGapChar c = true) ∧ x.2.InLine := fun x hx =>
    ⟨List.all_eq_true.mp (List.all_eq_true.mp hgaps x hx), hitems x hx⟩
  obtain ⟨out, ys, last', hout, htext, hsame, hlast⟩ :=
    formatBy_keeps_gaps 1 true (n := 0) (Int.le_refl 0) {} hxs
    (List.all_eq_true.mp (by decide : last.all isGapChar = true))
  exact ⟨by decide, out, ys, last', hout, htext, hsame.items, hsame.between, hsame.gaps, hlast⟩

end Html

end EmbeddedMarkup
