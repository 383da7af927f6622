import EmbeddedMarkup.Proofs.Html.Items
import EmbeddedMarkup.Proofs.Html.Stroke

/-!
# Well-nested markup

Each start tag of well-nested markup puts its element on the stack, and its end tag takes just that
element off again. The level is then what it was at the start tag, however the lines were broken.

What the tags do to the stack and the level does not depend on the page, so a run of the formatter
is looked at tag by tag (`Traced`). That the tags of an element cancel out is an induction on the
document.
-/

namespace EmbeddedMarkup.Html

open Layout (Page)

/-! ## Documents -/

/-- Well-nested markup. -/
inductive Document where
  | empty
  | text (u : Text)
  | element (name : Text) (content : Document)
  | single (name : Text)
  | append (d e : Document)

namespace Document

def source : Document → Text
  | empty => []
  | text u => u
  | element n d => (Mark.start n).text ++ d.source ++ (Mark.stop n).text
  | single n => (Mark.single n).text
  | append d e => d.source ++ e.source

def tags : Document → List Mark
  | empty => []
  | text _ => []
  | element n d => .start n :: (d.tags ++ [.stop n])
  | single n => [.single n]
  | append d e => d.tags ++ e.tags

/-- The places of the start tag and the end tag of each element, among the tags from place `k`
on. -/
def pairs (k : Nat) : Document → List (Nat × Nat)
  | empty => []
  | text _ => []
  | element _ d => (k, k + 1 + d.tags.length) :: d.pairs (k + 1)
  | single _ => []
  | append d e => d.pairs k ++ e.pairs (k + d.tags.length)

end Document

/-- The elements whose start tags may close other elements. -/
def optionalEnds : List Text :=
  Text.lits ["body", "li", "dd", "dt", "p", "rp", "rt", "optgroup", "option", "colgroup", "thead",
    "tbody", "tfoot", "tr", "th", "td"]

/-- An element that is laid out as usual and is closed by its own end tag only. -/
structure Nestable (style : Style.Markup) (n : Text) : Prop where
  name : IsName n
  small : Text.lower n = n
  nonvoid : style.voidElements.has n = false
  script : n ≠ "script".toList ∧ n ≠ "style".toList
  unformatted : style.unformatted.has n = false
  content : style.contentUnformatted.has n = false
  ended : n ∉ optionalEnds

/-- The texts of a document hold no brackets and braces, and its elements are nestable. -/
def Document.Plain (style : Style.Markup) : Document → Prop
  | empty => True
  | text u => ∀ c ∈ u, c ≠ '<' ∧ c ≠ '{'
  | element n d => Nestable style n ∧ d.Plain style
  | single n => Nestable style n
  | append d e => d.Plain style ∧ e.Plain style

/-! ## The stack and the level -/

/-- An open element: its start tag, its name and its level. -/
abbrev OpenElement := Option Nat × Text × Nat

/-- The open elements and the level. -/
structure Nesting where
  opened : List OpenElement
  level : Nat

/-- The open elements, whether or not they are spread over lines. -/
def TagStack.elements (stack : TagStack) : List OpenElement :=
  stack.map fun f => (f.id, f.name, f.level)

def State.nesting (s : State) : Nesting := ⟨s.stack.elements, s.level⟩

/-- The element that is closed by an end tag: its level, and the elements around it. -/
def Nesting.find? (n : Text) : List OpenElement → Option (Nat × List OpenElement)
  | [] => none
  | (_, name, level) :: rest => if name = n then some (level, rest) else find? n rest

/-- The nesting after the opening of the tag that is the `i`-th token. -/
def Nesting.next (a : Nesting) (i : Nat) : Mark → Nesting
  | .start n => ⟨(some i, Text.lower n, a.level) :: a.opened, a.level⟩
  | .stop n => ((find? (Text.lower n) a.opened).map fun e => ⟨e.2, e.1⟩).getD a
  | .single _ => a

namespace TagStack

theorem elements_noted (tag : Tag) (k : Nat) (stack : TagStack) (atStart : Bool) :
    (Setup.noted tag k stack atStart).elements = stack.elements := by
  have hmark : (stack.markMultiline k).elements = stack.elements := by
    unfold elements markMultiline
    refine List.ext_getElem? fun j => ?_
    simp only [List.getElem?_map, List.getElem?_modify]
    split <;> cases stack[j]? <;> rfl
  unfold Setup.noted
  split
  · exact hmark
  · rfl

theorem find?_elements (n : Text) (stack : TagStack) :
    Nesting.find? n stack.elements = (stack.find? [n] []).map fun e =>
      (e.1.level, e.2.elements) := by
  induction stack with
  | nil => rfl
  | cons f rest ih =>
      by_cases hn : f.name = n
      · simp [elements, Nesting.find?, find?, hn]
      · have hcontains : [n].contains f.name = false := by simpa using hn
        rw [find?, hcontains]
        simp only [elements, List.map_cons, Nesting.find?, hn, if_false, Bool.false_eq_true,
          List.contains_nil]
        exact ih

/-- The start tag of an element that closes no other leaves the stack alone. -/
theorem impliedEnd?_eq_none {stack : TagStack} {n : Text} (hn : n ∉ optionalEnds)
    (hp : ∀ f ∈ stack, f.name ≠ ['p']) : stack.impliedEnd? n = none := by
  have hne : ∀ x ∈ optionalEnds, (n == x) = false :=
    fun x hx => beq_eq_false_iff_ne.mpr fun e => hn (e ▸ hx)
  have hhead : (stack.head?.any fun f => f.name == ['p']) = false := by
    cases stack with
    | nil => rfl
    | cons f rest => simpa using hp f (List.mem_cons_self ..)
  simp only [optionalEnds, Text.lits, List.map_cons, List.map_nil, List.forall_mem_cons] at hne
  obtain ⟨h₁, h₂, h₃, h₄, -, h₅, h₆, h₇, h₈, h₉, h₁₀, h₁₁, h₁₂, h₁₃, h₁₄, h₁₅, -⟩ := hne
  have hnone : impliedEnds n stack = [] := by
    simp only [impliedEnds, h₁, h₂, h₃, h₄, h₅, h₆, h₇, h₈, h₉, h₁₀, h₁₁, h₁₂, h₁₃, h₁₄, h₁₅, hhead,
      Bool.or_false, Bool.false_and, Bool.false_eq_true, if_false]
  rw [impliedEnd?, hnone]
  cases stack <;> rfl

end TagStack

/-! ## What writing does to them -/

namespace State

theorem exists_onto_print (s : State) (x : Text) : ∃ p, s.print x = s.onto p := by
  unfold print
  split
  · exact ⟨s.page, rfl⟩
  · exact ⟨_, rfl⟩

theorem exists_onto_newlines (n : Nat) (s : State) : ∃ p, newlines n s = s.onto p := by
  induction n with
  | zero => exact ⟨s.page, rfl⟩
  | succ n ih =>
      obtain ⟨p, hp⟩ := ih
      exact ⟨_, by rw [newlines, hp]; rfl⟩

theorem exists_onto_printGap (style : Style.General) (before : Kind) (t : Token) (s : State) :
    ∃ p, printGap style before t s = s.onto p := by
  unfold printGap
  split
  · dsimp only
    split
    · exact ⟨_, rfl⟩
    · exact exists_onto_newlines ..
  · exact ⟨s.page, rfl⟩

theorem exists_onto_ite {s s₁ s₂ : State} (h₁ : ∃ p, s₁ = s.onto p) (h₂ : ∃ p, s₂ = s.onto p)
    (P : Prop) [Decidable P] : ∃ p, (if P then s₁ else s₂) = s.onto p := by
  split
  · exact h₁
  · exact h₂

end State

namespace Setup

variable {setup : Setup} {s : State} {before : Kind} {o c t : Token} {more : List Token} {m : Mark}
  {g : Text}

theorem exists_onto_placeExtraLine (setup : Setup) (tag : Tag) (s : State) :
    ∃ p, setup.placeExtraLine tag s = s.onto p :=
  State.exists_onto_ite (State.exists_onto_ite ⟨_, rfl⟩ ⟨_, rfl⟩ _) ⟨s.page, rfl⟩ _

/-- The content of an ordinary tag is laid out as usual. -/
structure OrdinaryTag (tag : Tag) : Prop where
  unformatted : tag.isUnformatted = false
  content : tag.isContentUnformatted = false
  language : tag.language = none

/-- Between tags, with no content that is left as it is. -/
structure Resting (s : State) : Prop where
  understood : s.last ≠ .notUnderstood
  complete : s.lastTag.isComplete = true
  tag : OrdinaryTag s.lastTag

theorem ordinaryTag_mark {style : Style.Markup} (h : m.Ordinary style) (i : Nat) :
    OrdinaryTag (m.tag style i) := by
  refine ⟨h.unformatted, ?_, rfl⟩
  simp [Mark.tag, h.content]

theorem languageOf_mark {style : Style.Markup} (h : m.Ordinary style) (i : Nat) (t : Token)
    (following : List Token) :
    languageOf t following (m.tag style i) = none := by
  unfold languageOf
  split
  · rfl
  · next hend =>
      split
      · next hscript =>
          have hcheck : m.name = m.check := by
            cases m with
            | start n => rfl
            | stop n => simp [Mark.tag, Mark.isEnd] at hend
            | single n => rfl
          have hname : (m.tag style i).name = m.check := hcheck
          simp only [hname, Bool.and_eq_true, Bool.or_eq_true, beq_iff_eq] at hscript
          rcases hscript.1 with h' | h'
          · exact absurd h' h.script.1
          · exact absurd h' h.script.2
      · rfl

theorem writeText_resting (hs : Resting s) :
    ∃ p, setup.writeText before t s = .ok { s.onto p with last := .content } := by
  obtain ⟨p, hp⟩ := State.exists_onto_printGap setup.style.toGeneral before t s
  obtain ⟨q, hq⟩ := State.exists_onto_print (s.onto p) t.text
  refine ⟨q, ?_⟩
  simp only [writeText, hs.tag.language, hs.tag.unformatted, hs.tag.content, hp, hq]
  rfl

theorem nesting_noteMultiline (tag : Tag) (k : Nat) (s : State) :
    (noteMultiline tag k s).nesting = s.nesting := by
  rw [noteMultiline_eq]
  exact congrArg (Nesting.mk · s.level) (TagStack.elements_noted ..)

theorem nesting_placeEmpty {tag : Tag} (hbrace : tag.startsWith '{' = false) (s : State) :
    (placeEmpty tag s).1 = tag ∧ (placeEmpty tag s).2.nesting = s.nesting := by
  unfold placeEmpty
  simp only [hbrace, Bool.false_and, Bool.false_eq_true, if_false]
  split
  · exact ⟨rfl, rfl⟩
  · refine ⟨rfl, (nesting_noteMultiline ..).trans ?_⟩
    split <;> rfl

theorem nesting_placeStart (setup : Setup) {tag : Tag} (h : OrdinaryTag tag) (s : State) :
    (setup.placeStart tag s).2.nesting = s.nesting ∧ OrdinaryTag (setup.placeStart tag s).1 := by
  refine ⟨(nesting_noteMultiline ..).trans ?_, ⟨h.unformatted, h.content, h.language⟩⟩
  split <;> rfl

theorem nesting_placeEnd (tag : Tag) (started : Option Frame) (s : State) :
    (placeEnd tag started s).nesting = s.nesting := by
  unfold placeEnd
  dsimp only
  split <;> rfl

theorem placeTag_mark {style : Style.Markup} (hm : m.Ordinary style) (i : Nat)
    (hstart : ∀ n, m = .start n → style.voidElements.has (Text.lower n) = false ∧
      s.stack.impliedEnd? (Text.lower n) = none) :
    (setup.placeTag t more (m.tag style i) s).2.nesting = s.nesting.next i m ∧
      OrdinaryTag (setup.placeTag t more (m.tag style i) s).1 ∧
      (m.isEnd = true → (setup.placeTag t more (m.tag style i) s).1.indentsContent = false) := by
  have hordinary := ordinaryTag_mark hm i
  cases m with
  | start n =>
      obtain ⟨hvoid, himplied⟩ := hstart n rfl
      let tag : Tag := { (Mark.start
        n).tag style i with language := languageOf t more ((Mark.start n).tag style i) }
      have htag : OrdinaryTag tag :=
        ⟨hordinary.unformatted, hordinary.content, languageOf_mark hm i t more⟩
      have hempty : ((Mark.start n).tag style i).isEmpty = false := hvoid
      have hsame : endImplied ((Mark.start n).tag style i) s = s := by
        unfold endImplied
        rw [show ((Mark.start n).tag style i).name = Text.lower n from rfl, himplied]
        rfl
      let s' : State := { s with stack := frameOf ((Mark.start n).tag style i) s.level :: s.stack }
      have hmove : moveOnStack t more ((Mark.start n).tag style i) s = (none, tag, s') := by
        rw [moveOnStack_start hempty hvoid, hsame]
      obtain ⟨p, hp⟩ := exists_onto_placeExtraLine setup tag s'
      obtain ⟨hnesting, hput⟩ := nesting_placeStart setup htag (s'.onto p)
      rw [placeTag_eq hmove, if_neg (by simp [tag, hempty]),
        if_neg (by simp [tag, show ((Mark.start n).tag style i).isEnd = false from hvoid]), hp]
      exact ⟨hnesting, hput, fun h => by simp [Mark.isEnd] at h⟩
  | stop n =>
      let tag := (Mark.stop n).tag style i
      have hempty : tag.isEmpty = false := rfl
      have hend : tag.isEnd = true := rfl
      let s' : State := (s.stack.find? [Text.lower n] []).elim s s.popTo
      have hmove :
          moveOnStack t more tag s = ((s.stack.find? [Text.lower n] []).map Prod.fst, tag, s') :=
        moveOnStack_end hempty hend
      obtain ⟨p, hp⟩ := exists_onto_placeExtraLine setup tag s'
      rw [placeTag_eq hmove, if_neg (by simp [hempty]), if_pos hend, hp]
      refine ⟨(nesting_placeEnd ..).trans ?_, hordinary, fun _ => rfl⟩
      change s'.nesting = _
      rw [Nesting.next, show s.nesting.opened = s.stack.elements from rfl, TagStack.find?_elements]
      cases hfind : s.stack.find? [Text.lower n] [] with
      | none => simp only [s', hfind]; rfl
      | some found => simp only [s', hfind]; rfl
  | single n =>
      let tag := (Mark.single n).tag style i
      have hmove : moveOnStack t more tag s = (none, tag, s) := moveOnStack_empty rfl
      obtain ⟨p, hp⟩ := exists_onto_placeExtraLine setup tag s
      have hempty : tag.isEmpty = true := rfl
      have hbrace : tag.startsWith '{' = false := rfl
      obtain ⟨hput, hnesting⟩ := nesting_placeEmpty hbrace (s.onto p)
      rw [placeTag_eq hmove, if_pos hempty, hp, hput]
      exact ⟨hnesting, hordinary, fun _ => rfl⟩

theorem nesting_afterOpen (t : Token) (following : List Token) (tag : Tag) (s : State) :
    (setup.afterOpen t following tag s).nesting = s.nesting := by
  unfold afterOpen
  dsimp only
  split <;> rfl

theorem writeTagOpen_mark (before : Kind) (hs : Resting s) (hm : m.Ordinary setup.style)
    (hlinked : Linked (o :: c :: more)) (ho : o.toLexeme = m.openLexeme g)
    (hc : c.toLexeme = m.closeLexeme)
    (hstart : ∀ n, m = .start n → setup.style.voidElements.has (Text.lower n) = false ∧
      s.stack.impliedEnd? (Text.lower n) = none) :
    let s' := setup.writeTagOpen before o (c :: more) s
    s'.nesting = s.nesting.next o.index m ∧ OrdinaryTag s'.lastTag ∧ s'.last = .tagOpen ∧
      (m.isEnd = true → s'.lastTag.indentsContent = false) := by
  intro s'
  have htag : Tag.ofToken setup.style o (c :: more) = m.tag setup.style o.index :=
    hlinked.ofToken_eq hm.name ho hc
  have hplain : endsRaw s o (Tag.ofToken setup.style o (c :: more)) = false := by
    simp [endsRaw, hs.tag.unformatted, hs.tag.content]
  obtain ⟨p, hp⟩ := State.exists_onto_printGap setup.style.toGeneral before o s
  have hwrite : s' = _ := writeTagOpen_placed hplain
  rw [htag, hp] at hwrite
  generalize hr : setup.placeTag o (c :: more) (m.tag setup.style o.index) (s.onto p) = r at hwrite
  obtain ⟨hnesting, hordinary, hindents⟩ : r.2.nesting = s.nesting.next o.index m ∧
      OrdinaryTag r.1 ∧ (m.isEnd = true → r.1.indentsContent = false) :=
      hr ▸ placeTag_mark hm o.index hstart
  obtain ⟨q, hq⟩ : ∃ q, (if r.1.isInline = true then r.2 else r.2.setBreak) = r.2.onto q :=
    State.exists_onto_ite ⟨r.2.page, rfl⟩ ⟨_, rfl⟩ _
  obtain ⟨q', hq'⟩ := State.exists_onto_print (r.2.onto q) o.text
  dsimp only at hwrite
  rw [hq, hq'] at hwrite
  rw [hwrite]
  exact ⟨(nesting_afterOpen ..).trans hnesting,
    ⟨hordinary.unformatted, hordinary.content, hordinary.language⟩, rfl, hindents⟩

theorem exists_onto_printClose (setup : Setup) (c : Token) (s : State) :
    ∃ p, setup.printClose c s = { s with alignment := 0 }.onto p := by
  unfold printClose
  dsimp only
  split
  · exact ⟨_, rfl⟩
  · split
    · split
      · exact State.exists_onto_print ..
      · exact State.exists_onto_print ..
    · exact State.exists_onto_print ..

theorem afterClose_ordinary {tag : Tag} (h : OrdinaryTag tag) (s : State) :
    ∃ p tag', afterClose tag s =
        ({ s with
          level := s.level + tag.indentsContent.toNat, lastTag := tag', last := .tagClose } :
          State).onto p ∧
      OrdinaryTag tag' ∧ tag'.isComplete = tag.isComplete := by
  unfold afterClose
  extract_lets asItIs indents s₁ tag' s₂
  have hindents : indents = tag.indentsContent := by
    simp [indents, asItIs, h.unformatted, h.content]
  have hs₁ : s₁ = { s with level := s.level + tag.indentsContent.toNat } := by
    simp only [s₁, hindents]
    cases tag.indentsContent <;> rfl
  have htag' : OrdinaryTag tag' ∧ tag'.isComplete = tag.isComplete := by
    simp only [tag']
    split
    · exact ⟨⟨h.unformatted, h.content, h.language⟩, rfl⟩
    · exact ⟨h, rfl⟩
  obtain ⟨p, hs₂⟩ : ∃ p, s₂ = s₁.onto p := State.exists_onto_ite ⟨s₁.page, rfl⟩ ⟨_, rfl⟩ _
  refine ⟨p, tag', ?_, htag'⟩
  rw [hs₂, hs₁]
  rfl

theorem writeTagClose_mark (setup : Setup) (htag : OrdinaryTag s.lastTag) (c : Token) :
    let s' := setup.writeTagClose c s
    Resting s' ∧ s'.nesting.opened = s.nesting.opened ∧
      (s.lastTag.indentsContent = false → s'.nesting = s.nesting) := by
  intro s'
  obtain ⟨p, hp⟩ := exists_onto_printClose setup c s
  have htag' : OrdinaryTag { s.lastTag with isComplete := true } :=
    ⟨htag.unformatted, htag.content, htag.language⟩
  obtain ⟨q, tag', hwrite,
    hordinary, hcomplete⟩ := afterClose_ordinary htag' ({ s with alignment := 0 }.onto p)
  have hwrite : s' = _ := (writeTagClose_eq setup c s).trans ((congrArg _ hp).trans hwrite)
  rw [hwrite]
  refine ⟨⟨Written.noConfusion, hcomplete, hordinary⟩, rfl, fun hnone => ?_⟩
  rw [show ({ s.lastTag with isComplete := true } : Tag).indentsContent = false from hnone]
  rfl

end Setup

/-! ## Runs -/

/-- A token and the states around it. -/
structure Step where
  token : Token
  before : State
  after : State

def Setup.steps (setup : Setup) : (before : Kind) → List Token → State → List Step
  | _, [], _ => []
  | before, t :: following, s =>
      if t.kind = .eof then []
      else
        match setup.write before t following s with
        | .error _ => []
        | .ok s' => ⟨t, s, s'⟩ :: steps setup t.kind following s'

def Setup.tagSteps (setup : Setup) (before : Kind) (ts : List Token) (s : State) : List Step :=
  (setup.steps before ts s).filter fun x => x.token.kind == .tagOpen

/-- Steps at the given tags lead from one nesting to another. -/
inductive Traced : List Mark → Nesting → List Step → Nesting → Prop
  | nil (a : Nesting) : Traced [] a [] a
  | cons {m : Mark} {ms : List Mark} {a b c : Nesting} {x : Step} {xs : List Step}
      (text : x.token.text = m.opening) (before : x.before.nesting = a)
      (after : x.after.nesting = a.next x.token.index m)
        (opened : b.opened = x.after.nesting.opened)
      (level : m.isEnd = true → b = x.after.nesting) (rest : Traced ms b xs c) :
      Traced (m :: ms) a (x :: xs) c

theorem Traced.texts {ms : List Mark} {a c : Nesting} {xs : List Step} (h : Traced ms a xs c) :
    xs.map (fun x => x.token.text) = ms.map Mark.opening := by
  induction h with
  | nil => rfl
  | cons text _ _ _ _ _ ih => rw [List.map_cons, List.map_cons, text, ih]

theorem Traced.eq_of_nil {a c : Nesting} {xs : List Step} (h : Traced [] a xs c) :
    xs = [] ∧ c = a := by
  generalize hms : ([] : List Mark) = ms at h
  cases h with
  | nil => exact ⟨rfl, rfl⟩
  | cons => cases hms

theorem Setup.steps_of_write {setup : Setup} {before : Kind} {t : Token} {following : List Token}
    {s s' : State} (hkind : t.kind ≠ .eof) (h : setup.write before t following s = .ok s') :
    setup.steps before (t :: following) s = ⟨t, s, s'⟩ :: setup.steps t.kind following s' := by
  rw [steps, if_neg hkind, h]

def Nesting.NoParagraph (a : Nesting) : Prop := ∀ e ∈ a.opened, e.2.1 ≠ ['p']

theorem Nesting.NoParagraph.next {a : Nesting} (h : a.NoParagraph) (i : Nat) {m : Mark}
    (hm : ∀ n, m = .start n → Text.lower n ≠ ['p']) : (a.next i m).NoParagraph := by
  have hfind : ∀ {n : Text} {es : List OpenElement} {r : Nat × List OpenElement},
      (∀ e ∈ es, e.2.1 ≠ ['p']) → find? n es = some r → ∀ e ∈ r.2, e.2.1 ≠ ['p'] := by
    intro n es r hes hr
    induction es with
    | nil => cases hr
    | cons e es ih =>
        rw [find?] at hr
        split at hr
        · obtain rfl := Option.some.inj hr
          exact fun e he => hes e (List.mem_cons_of_mem _ he)
        · exact ih (fun e he => hes e (List.mem_cons_of_mem _ he)) hr
  cases m with
  | start n => exact List.forall_mem_cons.mpr ⟨hm n rfl, h⟩
  | single n => exact h
  | stop n =>
      rw [Nesting.next]
      cases hr : find? (Text.lower n) a.opened with
      | none => exact h
      | some r => exact hfind h hr

section

variable {setup : Setup} {s : State} {xs : List (Text × Item)} {last : Text} {afterWord : Bool}
  {ts : List Token}

/-- A text of words and tags is written, and each of its tags does to the nesting what it is there
for. -/
theorem traced_writeAll (before : Kind) (h : Separated setup.style afterWord xs last)
    (hstarts : ∀ n, .start n ∈ marks xs →
      setup.style.voidElements.has (Text.lower n) = false ∧ Text.lower n ∉ optionalEnds)
    (hts : ts.map Token.toLexeme = lexemesOf xs last) (hlinked : Linked ts) (hs : Setup.Resting s)
    (hp : s.nesting.NoParagraph) :
    ∃ s', setup.writeAll before ts s = .ok s' ∧
      Traced (marks xs) s.nesting (setup.tagSteps before ts s) s'.nesting := by
  induction xs generalizing before ts s afterWord with
  | nil =>
      obtain ⟨e, rfl, he⟩ := List.map_eq_singleton_iff.mp hts
      have hkind : e.kind = .eof := congrArg Lexeme.kind he
      refine ⟨s, Setup.writeAll_eof hkind, ?_⟩
      rw [Setup.tagSteps, Setup.steps, if_pos hkind]
      exact .nil _
  | cons x xs ih =>
      obtain ⟨g, x⟩ := x
      cases x with
      | word u =>
          obtain ⟨-, -, -, hxs⟩ := h
          obtain ⟨t, ts, rfl, ht, hts⟩ := List.map_eq_cons_iff.mp hts
          have hkind : t.kind = .text := congrArg Lexeme.kind ht
          obtain ⟨p, hp'⟩ :
              ∃ p, setup.writeText before t s = .ok { s.onto p with last := .content } :=
            Setup.writeText_resting hs
          have hwrite : setup.write before t ts s = _ :=
            (Setup.write_text hkind hs.understood hs.complete).trans hp'
          have hrest : Setup.Resting { s.onto p with last := .content } :=
            ⟨Written.noConfusion, hs.complete, hs.tag⟩
          obtain ⟨s', hs', htraced⟩ := ih .text hxs hstarts hts hlinked.tail hrest hp
          refine ⟨s', ?_, ?_⟩
          · rw [Setup.writeAll_of_write (by simp [hkind]) hwrite, hkind]
            exact hs'
          · rw [Setup.tagSteps, Setup.steps_of_write (by simp [hkind]) hwrite,
              List.filter_cons_of_neg (by simp [hkind]), hkind]
            exact htraced
      | mark m =>
          obtain ⟨-, hm, hxs⟩ := h
          obtain ⟨o, ts, rfl, ho, hts⟩ := List.map_eq_cons_iff.mp hts
          obtain ⟨c, ts, rfl, hc, hts⟩ := List.map_eq_cons_iff.mp hts
          have hopening : o.kind = .tagOpen := congrArg Lexeme.kind ho
          have hclosing : c.kind = .tagClose := congrArg Lexeme.kind hc
          have hstart : ∀ n, m = .start n →
              setup.style.voidElements.has (Text.lower n) = false ∧ Text.lower n ∉ optionalEnds :=
            fun n hn => hstarts n (hn ▸ List.mem_cons_self ..)
          have hnames : ∀ f ∈ s.stack, f.name ≠ ['p'] := fun f hf =>
            hp (f.id, f.name, f.level) (List.mem_map.mpr ⟨f, hf, rfl⟩)
          obtain ⟨hnesting, hordinary, hlast, hindents⟩ :=
            Setup.writeTagOpen_mark before hs hm hlinked ho hc
            fun n hn => ⟨(hstart n hn).1, TagStack.impliedEnd?_eq_none (hstart n hn).2 hnames⟩
          generalize hs₁ :
            setup.writeTagOpen before o (c :: ts) s = s₁ at hnesting hordinary hlast hindents
          have hwrite : setup.write before o (c :: ts) s = .ok s₁ :=
            hs₁ ▸ Setup.write_tagOpen hopening hs.understood
          have hlast₁ : s₁.last ≠ .notUnderstood := by simp [hlast]
          have hwrite' : setup.write .tagOpen c ts s₁ = _ := Setup.write_tagClose hclosing hlast₁
          obtain ⟨hrest, hopened, hlevel⟩ := Setup.writeTagClose_mark setup hordinary c
          have hp₂ : (setup.writeTagClose c s₁).nesting.NoParagraph := by
            have hnext := hp.next o.index (m := m) fun n hn hname =>
              (hstart n hn).2 (hname ▸ by decide)
            rw [← hnesting] at hnext
            rw [Nesting.NoParagraph, hopened]
            exact hnext
          obtain ⟨s', hs', htraced⟩ := ih .tagClose hxs
            (fun n hn => hstarts n (List.mem_cons_of_mem _ hn)) hts hlinked.tail.tail hrest hp₂
          refine ⟨s', ?_, ?_⟩
          · rw [Setup.writeAll_of_write (by simp [hopening]) hwrite, hopening,
              Setup.writeAll_of_write (by simp [hclosing]) hwrite', hclosing]
            exact hs'
          · have hsteps : setup.tagSteps before (o :: c :: ts) s =
                ⟨o, s, s₁⟩ :: setup.tagSteps .tagClose ts (setup.writeTagClose c s₁) := by
              rw [Setup.tagSteps, Setup.steps_of_write (by simp [hopening]) hwrite,
                List.filter_cons_of_pos (by simp [hopening]), hopening,
                Setup.steps_of_write (by simp [hclosing]) hwrite',
                List.filter_cons_of_neg (by simp [hclosing]), hclosing]
              rfl
            rw [hsteps]
            exact .cons (congrArg Lexeme.text ho) rfl hnesting hopened
              (fun hend => hlevel (hindents hend)) htraced

end

/-! ## Elements -/

def TagStack.ids (stack : TagStack) : List (Option Nat) := stack.map Frame.id

/-- The second step closes the element that the first one opened. -/
structure Paired (x y : Step) : Prop where
  pushed : x.after.stack.ids = some x.token.index :: x.before.stack.ids
  kept : y.before.stack.ids = some x.token.index :: x.before.stack.ids
  popped : y.after.stack.ids = x.before.stack.ids
  level : y.after.level = x.before.level

theorem ids_eq (s : State) : s.stack.ids = s.nesting.opened.map Prod.fst := by
  rw [State.nesting, TagStack.elements, List.map_map]
  rfl

/-- The tags of a document lead back to where they started, each element by itself. -/
theorem Traced.document (d : Document) {ms : List Mark} {a c : Nesting} {xs : List Step}
    (h : Traced (d.tags ++ ms) a xs c) :
    ∃ ys zs, xs = ys ++ zs ∧ ys.length = d.tags.length ∧ Traced ms a zs c ∧
      ∀ pre : List Step, ∀ e ∈ d.pairs pre.length, ∃ x y, (pre ++ ys)[e.1]? = some x ∧
      (pre ++ ys)[e.2]? = some y ∧
        Paired x y := by
  induction d generalizing ms a c xs with
  | empty => exact ⟨[], xs, rfl, rfl, h, by simp [Document.pairs]⟩
  | text u => exact ⟨[], xs, rfl, rfl, h, by simp [Document.pairs]⟩
  | single n =>
      cases h with
      | @cons _ _ _ b _ x xs text before after opened level rest =>
          have hsame : b = a := (level rfl).trans after
          exact ⟨[x], xs, rfl, rfl, hsame ▸ rest, by simp [Document.pairs]⟩
  | append d e hd he =>
      rw [Document.tags, List.append_assoc] at h
      obtain ⟨ys, zs, rfl, hlength, hrest, hpairs⟩ := hd h
      obtain ⟨ys', zs', rfl, hlength', hrest', hpairs'⟩ := he hrest
      refine ⟨ys ++ ys', zs', by simp, by simp [Document.tags, hlength, hlength'], hrest',
        fun pre p hp => ?_⟩
      rcases List.mem_append.mp hp with hp | hp
      · obtain ⟨x, y, hx, hy, hpaired⟩ := hpairs pre p hp
        refine ⟨x, y, ?_, ?_, hpaired⟩
        · rw [← List.append_assoc]
          exact List.getElem?_append_left (List.getElem?_eq_some_iff.mp hx).1 ▸ hx
        · rw [← List.append_assoc]
          exact List.getElem?_append_left (List.getElem?_eq_some_iff.mp hy).1 ▸ hy
      · rw [← hlength, ← List.length_append] at hp
        obtain ⟨x, y, hx, hy, hpaired⟩ := hpairs' (pre ++ ys) p hp
        exact ⟨x, y, by rwa [← List.append_assoc], by rwa [← List.append_assoc], hpaired⟩
  | element n d hd =>
      rw [Document.tags, List.cons_append, List.append_assoc] at h
      cases h with
      | @cons _ _ _ b _ x xs _ before after opened _ rest =>
          obtain ⟨ys, zs, rfl, hlength, hrest, hpairs⟩ := hd rest
          cases hrest with
          | @cons _ _ _ b' _ y zs _ before' after' _ level' rest' =>
              have hopened : b.opened = (some x.token.index, Text.lower n, a.level) :: a.opened :=
                opened.trans (by rw [after]; rfl)
              have hclosed : y.after.nesting = a := by
                rw [after', Nesting.next, hopened, Nesting.find?, if_pos rfl]
                rfl
              have hback : b' = a := (level' rfl).trans hclosed
              have hpaired : Paired x y := by
                refine ⟨?_, ?_, ?_, ?_⟩
                · rw [ids_eq, ids_eq, before, after]
                  rfl
                · rw [ids_eq, ids_eq, before, before', hopened]
                  rfl
                · rw [ids_eq, ids_eq, before, hclosed]
                · exact (congrArg Nesting.level hclosed).trans (congrArg Nesting.level before).symm
              refine ⟨x :: (ys ++ [y]), zs, by simp, by simp [Document.tags, hlength],
                hback ▸ rest', fun pre e he => ?_⟩
              rcases List.mem_cons.mp he with rfl | he
              · refine ⟨x, y, by simp, ?_, hpaired⟩
                rw [List.getElem?_append_right (by omega),
                  show pre.length + 1 + d.tags.length - pre.length = ys.length + 1 by omega]
                simp
              · have hsplit : pre ++ x :: (ys ++ [y]) = (pre ++ [x] ++ ys) ++ [y] := by simp
                rw [show pre.length + 1 = (pre ++ [x]).length by simp] at he
                obtain ⟨x', y', hx, hy, hpaired'⟩ := hpairs (pre ++ [x]) e he
                rw [hsplit]
                exact ⟨x', y', List.getElem?_append_left (List.getElem?_eq_some_iff.mp hx).1 ▸ hx,
                  List.getElem?_append_left (List.getElem?_eq_some_iff.mp hy).1 ▸ hy, hpaired'⟩

/-! ## The run of a document -/

/-- No listed name is that of an end tag. -/
def Slashless (names : Style.Names) : Prop := ∀ n, names.has ('/' :: n) = false

theorem Nestable.ordinary {style : Style.Markup} {n : Text} (h : Nestable style n)
    (hunformatted : Slashless style.unformatted) (hcontent : Slashless style.contentUnformatted) :
    (Mark.start n).Ordinary style ∧ (Mark.stop n).Ordinary style ∧
      (Mark.single n).Ordinary style := by
  have hscript : (Mark.start n).check ≠ "script".toList ∧
      (Mark.start n).check ≠ "style".toList := by
    rw [Mark.check, h.small]
    exact h.script
  have hstart : (Mark.start n).Ordinary style := by
    refine ⟨h.name, hscript, ?_, ?_⟩
    · rw [Mark.check, h.small]
      exact h.unformatted
    · rw [Mark.check, h.small]
      exact h.content
  refine ⟨hstart, ⟨h.name, by simp [Mark.check], hunformatted _, hcontent _⟩,
    ⟨h.name, hscript, hstart.unformatted, hstart.content⟩⟩

/-- A document is spelled from items that have its tags. -/
theorem Document.exists_spell {style : Style.Markup} (hunformatted : Slashless style.unformatted)
    (hcontent : Slashless style.contentUnformatted) (d : Document) (hd : d.Plain style)
    {xs : List (Text × Item)} {last : Text} (h : Separated style false xs last) :
    ∃ xs' last', Separated style false xs' last' ∧ spell xs' last' = d.source ++ spell xs last ∧
      marks xs' = d.tags ++ marks xs := by
  induction d generalizing xs last with
  | empty => exact ⟨xs, last, h, rfl, rfl⟩
  | text u => exact h.exists_append hd
  | single n =>
      obtain ⟨-, -, hm⟩ := Nestable.ordinary hd hunformatted hcontent
      exact ⟨([], .mark (.single n)) :: xs, last, ⟨by simp, hm, h⟩, rfl, rfl⟩
  | append d e hdoc hdoc' =>
      obtain ⟨xs₁, last₁, h₁, hspell₁, hmarks₁⟩ := hdoc' hd.2 h
      obtain ⟨xs₂, last₂, h₂, hspell₂, hmarks₂⟩ := hdoc hd.1 h₁
      exact ⟨xs₂, last₂, h₂, by rw [hspell₂, hspell₁, source, List.append_assoc],
        by rw [hmarks₂, hmarks₁, tags, List.append_assoc]⟩
  | element n d hdoc =>
      obtain ⟨hm, hm', -⟩ := hd.1.ordinary hunformatted hcontent
      obtain ⟨xs₁, last₁, h₁, hspell₁, hmarks₁⟩ := hdoc hd.2
        (show Separated style false (([], .mark (.stop n)) :: xs) last from ⟨by simp, hm', h⟩)
      refine ⟨([], .mark (.start n)) :: xs₁, last₁, ⟨by simp, hm, h₁⟩, ?_, ?_⟩
      · rw [spell, hspell₁, source]
        simp [spell, Item.text]
      · rw [tags, List.cons_append, List.append_assoc]
        exact congrArg (Mark.start n :: ·) hmarks₁

theorem Document.nonvoid_of_mem_tags {style : Style.Markup} {d : Document} (hd : d.Plain style)
    {n : Text} (hn : .start n ∈ d.tags) : Nestable style n := by
  induction d with
  | empty => cases hn
  | text u => cases hn
  | single n => simp [tags] at hn
  | append d e hdoc hdoc' =>
      rcases List.mem_append.mp hn with hn | hn
      · exact hdoc hd.1 hn
      · exact hdoc' hd.2 hn
  | element n' d hdoc =>
      rcases List.mem_cons.mp hn with hn | hn
      · obtain rfl := Mark.start.inj hn
        exact hd.1
      · rcases List.mem_append.mp hn with hn | hn
        · exact hdoc hd.2 hn
        · simp at hn

/-- Writing a well-nested document, every end tag takes off the stack just what its start tag put
there and leads back to its level. At the end the stack is empty and the level is zero. -/
theorem Document.nesting_balanced (setup : Setup) (page : Page) {d : Document}
    (plain : PlainStyle setup.style) (hunformatted : Slashless setup.style.unformatted)
    (hcontent : Slashless setup.style.contentUnformatted) (hd : d.Plain setup.style) :
    ∃ ts s, Token.ofText (.ofStyle setup.style) (Text.unifyLineEnds d.source) = .ok ts ∧
      setup.writeAll .start ts { page } = .ok s ∧ s.stack = [] ∧ s.level = 0 ∧
      let xs := setup.tagSteps .start ts { page }
      xs.map (fun x => x.token.text) = d.tags.map Mark.opening ∧
      ∀ e ∈ d.pairs 0, ∃ x y, xs[e.1]? = some x ∧ xs[e.2]? = some y ∧ Paired x y := by
  obtain ⟨items, last, hitems, hspell, hmarks⟩ :=
    d.exists_spell hunformatted hcontent hd
      (show Separated setup.style false [] [] by simp [Separated])
  have hsource : Text.unifyLineEnds d.source = spell (unified items) (Text.unifyLineEnds last) := by
    rw [← unifyLineEnds_spell hitems, hspell]
    simp [spell]
  obtain ⟨ts, hts, hlexemes, hlinked⟩ := ofText_spell plain hitems.unified
  have hstarts : ∀ n, .start n ∈ marks (unified items) →
      setup.style.voidElements.has (Text.lower n) = false ∧ Text.lower n ∉ optionalEnds := by
    intro n hn
    rw [marks_unified, hmarks, List.mem_append] at hn
    have hnest := nonvoid_of_mem_tags hd (hn.resolve_right (by simp [marks]))
    rw [hnest.small]
    exact ⟨hnest.nonvoid, hnest.ended⟩
  have hresting : Setup.Resting { page } := ⟨Written.noConfusion, rfl, ⟨rfl, rfl, rfl⟩⟩
  obtain ⟨s, hs, htraced⟩ := traced_writeAll .start hitems.unified hstarts hlexemes hlinked hresting
    (by simp [Nesting.NoParagraph, State.nesting, TagStack.elements])
  rw [marks_unified, hmarks] at htraced
  have htexts := htraced.texts
  obtain ⟨ys, zs, hxs, -, hrest, hpairs⟩ := htraced.document
  obtain ⟨rfl, hend⟩ := hrest.eq_of_nil
  have hstack : s.stack = [] := List.map_eq_nil_iff.mp (congrArg Nesting.opened hend)
  rw [List.append_nil] at hxs
  refine ⟨ts, s, hsource ▸ hts, hs, hstack, congrArg Nesting.level hend, ?_, ?_⟩
  · simpa [marks] using htexts
  · rw [hxs]
    exact hpairs []

/-- Elements in elements of the same name, over lines that are broken everywhere. -/
theorem Document.nesting_balanced_divs :
    let d : Document := .append (.text " a".toList)
      (.element "div".toList (.append (.element "div".toList (.text "b\r\n\r\nc ".toList))
        (.append (.single "x-y".toList) (.element "span".toList .empty))))
    let settings : Style.Settings :=
      [("wrap_line_length".toList, .int 3), ("max_preserve_newlines".toList, .int 0)]
    ∃ style, Style.Markup.ofSettings settings = .ok style ∧ d.Plain style ∧
      d.source = " a<div><div>b\r\n\r\nc </div><x-y/><span></span></div>".toList ∧
      d.pairs 0 = [(0, 6), (1, 2), (4, 5)] ∧
      ∃ ts s, Token.ofText (.ofStyle style) (Text.unifyLineEnds d.source) = .ok ts ∧
        let setup : Setup := ⟨style, {}, fun t => .ok t⟩
        let s₀ : State := { page := .ofStyle style.toGeneral [' '] }
        setup.writeAll .start ts s₀ = .ok s ∧ s.stack = [] ∧ s.level = 0 ∧
        ∀ e ∈ d.pairs 0, ∃ x y, (setup.tagSteps .start ts s₀)[e.1]? = some x ∧
          (setup.tagSteps .start ts s₀)[e.2]? = some y ∧ Paired x y := by
  intro d settings
  obtain ⟨style, hstyle, plain, hunformatted, hcontent, hdiv, hcustom, hspan⟩ :
      ∃ style, Style.Markup.ofSettings settings = .ok style ∧ PlainStyle style ∧
        Slashless style.unformatted ∧ Slashless style.contentUnformatted ∧
        Nestable style "div".toList ∧ Nestable style "x-y".toList ∧
        Nestable style "span".toList := by
    refine ⟨_, rfl, ⟨by decide, rfl⟩, fun n => rfl, fun n => rfl, ?_, ?_, ?_⟩
    · exact ⟨⟨⟨'d', rfl, rfl⟩, List.all_eq_true.mp (by decide)⟩,
        rfl, by decide, by decide, by decide, by decide, by decide⟩
    · exact ⟨⟨⟨'x', rfl, rfl⟩, List.all_eq_true.mp (by decide)⟩,
        rfl, by decide, by decide, by decide, by decide, by decide⟩
    · exact ⟨⟨⟨'s', rfl, rfl⟩, List.all_eq_true.mp (by decide)⟩,
        rfl, by decide, by decide, by decide, by decide, by decide⟩
  have hd : d.Plain style :=
    ⟨by simp [Document.Plain], hdiv, ⟨hdiv, by simp [Document.Plain]⟩, hcustom, hspan, trivial⟩
  obtain ⟨ts, s, hts, hs, hstack, hlevel, -, hpairs⟩ := Document.nesting_balanced
    ⟨style, {}, fun t => .ok t⟩ (.ofStyle style.toGeneral [' ']) plain hunformatted hcontent hd
  exact ⟨style, hstyle, hd, by decide, by decide, ts, s, hts, hs, hstack, hlevel, hpairs⟩

end EmbeddedMarkup.Html
