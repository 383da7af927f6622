import EmbeddedMarkup.Proofs.Html.Links
import EmbeddedMarkup.Proofs.Html.Mark
import EmbeddedMarkup.Proofs.Text.LineEnds

/-!
# Words and tags without attributes

A text of words and of tags without attributes is a list of items, each behind a gap (`spell`). Two
words need a gap between them, for otherwise they are one word (`Separated`). Such a text is read
item by item: a word is one lexeme and a tag is two (`lexemesFrom_spell`). Any text without angle
brackets and braces can be put before such a text (`Separated.exists_append`).
-/

namespace EmbeddedMarkup.Html

/-- A word or a tag without attributes. -/
inductive Item where
  | word (u : Text)
  | mark (m : Mark)

namespace Item

def text : Item → Text
  | word u => u
  | mark m => m.text

def lexemes (g : Text) : Item → List Lexeme
  | word u => [{ kind := .text, text := u, gap := Gap.ofText {} g }]
  | mark m => [m.openLexeme g, m.closeLexeme]

def mark? : Item → Option Mark
  | word _ => none
  | mark m => some m

end Item

/-- The text of items behind their gaps, with the gap at the end. -/
def spell : List (Text × Item) → Text → Text
  | [], last => last
  | (g, x) :: xs, last => g ++ (x.text ++ spell xs last)

def lexemesOf : List (Text × Item) → Text → List Lexeme
  | [], last => [{ kind := .eof, text := [], gap := Gap.ofText {} last }]
  | (g, x) :: xs, last => x.lexemes g ++ lexemesOf xs last

/-- The tags among items. -/
def marks (xs : List (Text × Item)) : List Mark := xs.filterMap fun x => x.2.mark?

structure IsWord (u : Text) : Prop where
  nonempty : u ≠ []
  chars : ∀ c ∈ u, isGapChar c = false ∧ c ≠ '<' ∧ c ≠ '{'

theorem IsWord.of_all {u : Text} (hne : u ≠ [])
    (hall : (u.all fun c => !isGapChar c && c != '<' && c != '{') = true) :
    IsWord u := by
  refine ⟨hne, fun c hc => ?_⟩
  have := List.all_eq_true.mp hall c hc
  simp only [Bool.and_eq_true, Bool.not_eq_eq_eq_not, Bool.not_true, bne_iff_ne] at this
  exact ⟨this.1.1, this.1.2, this.2⟩

/-- A tag behind which content is laid out as usual. -/
structure Mark.Ordinary (style : Style.Markup) (m : Mark) : Prop where
  name : IsName m.written
  script : m.check ≠ "script".toList ∧ m.check ≠ "style".toList
  unformatted : style.unformatted.has m.check = false
  content : style.contentUnformatted.has m.check = false

/-- The items are words and ordinary tags behind gaps, with gaps between words. -/
def Separated (style : Style.Markup) : (afterWord : Bool) → List (Text × Item) → Text → Prop
  | _, [], last => ∀ c ∈ last, isGapChar c = true
  | afterWord, (g, .word u) :: xs, last =>
      (∀ c ∈ g, isGapChar c = true) ∧ IsWord u ∧ (afterWord = true → g ≠ []) ∧
        Separated style true xs last
  | _, (g, .mark m) :: xs, last =>
      (∀ c ∈ g, isGapChar c = true) ∧ m.Ordinary style ∧ Separated style false xs last

variable {style : Style.Markup} {ctx : Context} {g u last rest : Text} {xs : List (Text × Item)}
  {m : Mark}
  {afterWord : Bool}

/-! ## Reading items -/

/-- Between tags whose content is laid out as usual. -/
structure Context.Ordinary (style : Style.Markup) (ctx : Context) : Prop where
  opened : ctx.opened = []
  script : ∀ n, ctx.contentOf? = some n → n ≠ "script".toList ∧ n ≠ "style".toList
  content : ∀ n, ctx.contentOf? = some n → (Readers.ofStyle style).leavesContent n = false

theorem Context.ordinary_of_none (hopened : ctx.opened = []) (hnone : ctx.contentOf? = none) :
    ctx.Ordinary style := ⟨hopened, by simp [hnone], by simp [hnone]⟩

theorem Context.ordinary_start : Context.Ordinary style {} := ordinary_of_none rfl rfl

theorem Mark.Ordinary.context (h : m.Ordinary style) (g : Text) : (m.context g).Ordinary style := by
  have hcontent := Mark.contentOf?_context h.name g
  have hcheck : ∀ n, (m.context g).contentOf? = some n → n = m.check := by
    intro n hn
    rw [hcontent] at hn
    split at hn
    · exact (Option.some.inj hn).symm
    · cases hn
  refine ⟨rfl, fun n hn => hcheck n hn ▸ h.script, fun n hn => ?_⟩
  rw [hcheck n hn]
  have hstyle : (Readers.ofStyle style).style = style := rfl
  simp [Readers.leavesContent, hstyle, h.unformatted, h.content]

theorem Separated.stops (h : Separated style true xs last) :
    (Readers.oneOf ['\n', '\r', '\t', ' ', '<']).Stops (spell xs last) ∧
      opensTemplate (spell xs last) = false := by
  have hgap : ∀ {c : Char} {t : Text}, isGapChar c = true →
      (Readers.oneOf ['\n', '\r', '\t', ' ', '<']).Stops (c :: t) ∧
      opensTemplate (c :: t) = false := by
    intro c t hc
    have hmem : c ∈ ['\n', '\r', '\t', ' '] := by
      simp only [isGapChar, GapChars.isGap, GapChars.isLineEnd, List.contains_nil, Bool.or_false,
        Bool.or_eq_true, beq_iff_eq] at hc
      simp only [List.mem_cons, List.not_mem_nil, or_false]
      tauto
    refine ⟨Readers.oneOf_stops (List.mem_append_left ['<'] hmem), not_opensTemplate_of_head ?_ ?_⟩
    · rintro rfl
      simp at hmem
    · rintro rfl
      simp at hmem
  cases xs with
  | nil =>
      cases last with
      | nil => exact ⟨.inl rfl, rfl⟩
      | cons c last => exact hgap (h c (List.mem_cons_self ..))
  | cons x xs =>
      obtain ⟨g, x⟩ := x
      cases g with
      | cons c g =>
          cases x with
          | word u => exact hgap (h.1 c (List.mem_cons_self ..))
          | mark m => exact hgap (h.1 c (List.mem_cons_self ..))
      | nil =>
          cases x with
          | word u => exact absurd rfl (h.2.2.1 rfl)
          | mark m =>
              refine ⟨Readers.oneOf_stops (by simp), ?_⟩
              simp only [spell, Item.text, Mark.text, List.nil_append, List.append_assoc]
              exact Mark.opening_plain h.2.1.name

/-- What is asked of a style for text to be read as usual. -/
structure PlainStyle (style : Style.Markup) : Prop where
  angular : Readers.usesTemplate style .angular = false
  delimiter : style.unformattedContentDelimiter = []

theorem Context.Ordinary.passed (h : ctx.Ordinary style) (plain : PlainStyle style) {t : Text}
    (ht : ¬['{', '{'] <+: t) : Readers.Passed (.ofStyle style) ctx t :=
  Readers.passed_between plain.angular h.opened h.script ht

theorem Context.Ordinary.rawContent (h : ctx.Ordinary style) (t : Text) :
    (Readers.ofStyle style).rawContent ctx t = .ok none :=
      Readers.rawContent_eq_none h.opened h.content

theorem lexemesFrom_word (plain : PlainStyle style) (hctx : ctx.Ordinary style)
    (hg : ∀ c ∈ g, isGapChar c = true) (hu : IsWord u)
    (hrest : (Readers.oneOf ['\n', '\r', '\t', ' ', '<']).Stops rest ∧ opensTemplate rest = false) :
    let l : Lexeme := { kind := .text, text := u, gap := Gap.ofText {} g }
    lexemesFrom (.ofStyle style) ctx (g ++ (u ++ rest)) =
      (lexemesFrom (.ofStyle style) { previous := l } rest).map (l :: ·) := by
  intro l
  obtain ⟨c, w, rfl⟩ := List.exists_cons_of_ne_nil hu.nonempty
  have hfirst := hu.chars c (List.mem_cons_self ..)
  have hstops : ∀ d ∈ c :: w, d ∉ ['\n', '\r', '\t', ' ', '<'] := by
    intro d hd hmem
    obtain ⟨hgap, hangle, -⟩ := hu.chars d hd
    simp only [List.mem_cons, List.not_mem_nil, or_false] at hmem
    rcases hmem with rfl | rfl | rfl | rfl | rfl
    · simp [isGapChar, GapChars.isGap, GapChars.isLineEnd] at hgap
    · simp [isGapChar, GapChars.isGap, GapChars.isLineEnd] at hgap
    · simp [isGapChar, GapChars.isGap] at hgap
    · simp [isGapChar, GapChars.isGap] at hgap
    · exact hangle rfl
  have hfree : ∀ v, v <:+ c :: w → opensTemplate (v ++ rest) = false := by
    intro v hv
    cases v with
    | nil => exact hrest.2
    | cons d v =>
        obtain ⟨-, hangle, hbrace⟩ := hu.chars d (hv.subset (List.mem_cons_self ..))
        exact not_opensTemplate_of_head hbrace hangle
  have hlength : (Readers.ofStyle style).word.length ((c :: w) ++ rest) = (c :: w).length :=
    Readers.word_append hstops hfree hrest.1
  have hword : (Readers.ofStyle style).contentWord ctx ((c :: w) ++ rest) =
      some { kind := .text, length := (c :: w).length } := by
    rw [Readers.contentWord_eq plain.delimiter hctx.opened, hlength]
    rfl
  have hbraces : ¬['{', '{'] <+: (c :: w) ++ rest := by
    rintro ⟨t, ht⟩
    exact hfirst.2.2 (List.cons.inj ht).1.symm
  have hpiece := (hctx.passed plain hbraces).contentWord (hctx.rawContent _) hword
  have hadvance : ctx.advance l = { previous := l } := by
    simp [Context.advance, Lexeme.opens, l, hctx.opened]
  have happend := lexemesFrom_append hg ⟨c, rfl, hfirst.1⟩ hpiece rfl
  rw [show Piece.lexeme { kind := .text, length := (c :: w).length } g (c :: w) = l from rfl,
    hadvance] at happend
  exact happend

/-- A text that is spelled from items is read item by item. -/
theorem lexemesFrom_spell (plain : PlainStyle style) (hctx : ctx.Ordinary style)
    (h : Separated style afterWord xs last) :
    lexemesFrom (.ofStyle style) ctx (spell xs last) = .ok (lexemesOf xs last) := by
  induction xs generalizing ctx afterWord with
  | nil => exact lexemesFrom_gap h
  | cons x xs ih =>
      obtain ⟨g, x⟩ := x
      cases x with
      | word u =>
          obtain ⟨hg, hu, -, hxs⟩ := h
          rw [spell, Item.text, lexemesFrom_word plain hctx hg hu hxs.stops,
            ih (Context.ordinary_of_none rfl rfl) hxs]
          rfl
      | mark m =>
          obtain ⟨hg, hm, hxs⟩ := h
          have hbraces : ¬['{', '{'] <+: m.text ++ spell xs last := by
            rintro ⟨t, ht⟩
            simp [Mark.text, Mark.opening] at ht
          rw [spell, Item.text, Mark.lexemesFrom_mark hg hm.name plain.delimiter hctx.opened
            (hctx.passed plain hbraces) (hctx.rawContent _), ih (hm.context g) hxs]
          rfl

/-! ## Spelling a text -/

/-- A character that belongs to no tag joins the gap or the word behind it, or is a word. -/
theorem Separated.exists_cons {c : Char} (hc : c ≠ '<' ∧ c ≠ '{')
    (h : Separated style false xs last) :
    ∃ xs' last', Separated style false xs' last' ∧ spell xs' last' = c :: spell xs last ∧
      marks xs' = marks xs := by
  cases hgap : isGapChar c with
  | true =>
      have hcons : ∀ {g : Text}, (∀ d ∈ g, isGapChar d = true) → ∀ d ∈ c :: g, isGapChar d = true :=
        fun hg => List.forall_mem_cons.mpr ⟨hgap, hg⟩
      cases xs with
      | nil => exact ⟨[], c :: last, hcons h, rfl, rfl⟩
      | cons x xs =>
          obtain ⟨g, x⟩ := x
          refine ⟨(c :: g, x) :: xs, last, ?_, rfl, rfl⟩
          cases x with
          | word u => exact ⟨hcons h.1, h.2.1, by simp, h.2.2.2⟩
          | mark m => exact ⟨hcons h.1, h.2⟩
  | false =>
      have hword : IsWord [c] := ⟨by simp, by simpa using ⟨hgap, hc⟩⟩
      have hnew : Separated style true xs last →
          Separated style false (([], .word [c]) :: xs) last :=
        fun hxs => ⟨by simp, hword, by simp, hxs⟩
      cases xs with
      | nil => exact ⟨_, last, hnew h, rfl, rfl⟩
      | cons x xs =>
          obtain ⟨g, x⟩ := x
          cases x with
          | mark m => exact ⟨_, last, hnew h, rfl, rfl⟩
          | word u =>
              obtain ⟨hg, hu, -, hxs⟩ := h
              cases g with
              | nil =>
                  have hlonger : IsWord (c :: u) :=
                    ⟨by simp, List.forall_mem_cons.mpr ⟨⟨hgap, hc⟩, hu.chars⟩⟩
                  exact ⟨([], .word (c :: u)) :: xs, last, ⟨hg, hlonger, by simp, hxs⟩, rfl, rfl⟩
              | cons d g => exact ⟨_, last, hnew ⟨hg, hu, by simp, hxs⟩, rfl, rfl⟩

theorem Separated.exists_append (hu : ∀ c ∈ u, c ≠ '<' ∧ c ≠ '{')
    (h : Separated style false xs last) :
    ∃ xs' last', Separated style false xs' last' ∧ spell xs' last' = u ++ spell xs last ∧
      marks xs' = marks xs := by
  induction u with
  | nil => exact ⟨xs, last, h, rfl, rfl⟩
  | cons c u ih =>
      obtain ⟨hc, hu⟩ := List.forall_mem_cons.mp hu
      obtain ⟨xs₁, last₁, h₁, hspell₁, hmarks₁⟩ := ih hu
      obtain ⟨xs₂, last₂, h₂, hspell₂, hmarks₂⟩ := h₁.exists_cons hc
      exact ⟨xs₂, last₂, h₂, by rw [hspell₂, hspell₁]; rfl, hmarks₂.trans hmarks₁⟩

/-! ## Unified line ends -/

theorem not_isGapChar_of_isNameSign {c : Char} (h : Text.isNameSign c = true) :
    isGapChar c = false := by
  cases hgap : isGapChar c with
  | false => rfl
  | true =>
      simp only [isGapChar, GapChars.isGap, GapChars.isLineEnd, List.contains_nil, Bool.or_false,
        Bool.or_eq_true, beq_iff_eq] at hgap
      rcases hgap with (rfl | rfl) | (rfl | rfl) <;> exact absurd h (by decide)

theorem Mark.not_isGapChar (h : IsName m.written) : ∀ c ∈ m.text, isGapChar c = false := by
  have hname : ∀ c ∈ m.written, isGapChar c = false :=
    fun c hc => not_isGapChar_of_isNameSign (h.signs c hc)
  intro c hc
  cases m with
  | start n | single n =>
      simp only [text, opening, inner, closing, List.cons_append, List.mem_cons, List.mem_append,
        List.not_mem_nil, or_false] at hc
      rcases hc with rfl | hc | hc
      · rfl
      · exact hname c hc
      · rcases hc with rfl | rfl <;> rfl
  | stop n =>
      simp only [text, opening, inner, closing, List.cons_append, List.mem_cons, List.mem_append,
        List.not_mem_nil, or_false] at hc
      rcases hc with rfl | rfl | hc | rfl
      · rfl
      · rfl
      · exact hname c hc
      · rfl

def Item.Ordinary (style : Style.Markup) : Item → Prop
  | word u => IsWord u
  | mark m => m.Ordinary style

theorem Item.Ordinary.text_ne_nil {x : Item} (h : x.Ordinary style) : x.text ≠ [] := by
  cases x with
  | word u => exact h.nonempty
  | mark m => simp [Item.text, Mark.text, Mark.opening]

theorem Item.Ordinary.not_isGapChar {x : Item} (h : x.Ordinary style) :
    ∀ c ∈ x.text, isGapChar c = false := by
  cases x with
  | word u => exact fun c hc => (h.chars c hc).1
  | mark m => exact Mark.not_isGapChar h.name

theorem Separated.item {x : Item} (h : Separated style afterWord ((g, x) :: xs) last) :
    (∀ c ∈ g, isGapChar c = true) ∧ x.Ordinary style ∧
      ∃ afterWord, Separated style afterWord xs last := by
  cases x with
  | word u => exact ⟨h.1, h.2.1, true, h.2.2.2⟩
  | mark m => exact ⟨h.1, h.2.1, false, h.2.2⟩

def unified (xs : List (Text × Item)) : List (Text × Item) :=
  xs.map fun x => (Text.unifyLineEnds x.1, x.2)

theorem unifyLineEnds_spell (h : Separated style afterWord xs last) :
    Text.unifyLineEnds (spell xs last) = spell (unified xs) (Text.unifyLineEnds last) := by
  induction xs generalizing afterWord with
  | nil => rfl
  | cons x xs ih =>
      obtain ⟨g, x⟩ := x
      obtain ⟨-, hx, _, hxs⟩ := h.item
      have hreturn : '\r' ∉ x.text := fun hm => by
        simpa [isGapChar, GapChars.isGap, GapChars.isLineEnd] using hx.not_isGapChar _ hm
      have hhead : (x.text ++ spell xs last).head? ≠ some '\n' := by
        obtain ⟨c, t, ht⟩ := List.exists_cons_of_ne_nil hx.text_ne_nil
        have hc := hx.not_isGapChar c (ht ▸ List.mem_cons_self ..)
        rw [ht]
        rintro ⟨⟩
        simp [isGapChar, GapChars.isGap, GapChars.isLineEnd] at hc
      rw [spell, Text.unifyLineEnds_append_of_head hhead,
        Text.unifyLineEnds_append_of_not_mem hreturn, ih hxs]
      rfl

theorem Separated.unified (h : Separated style afterWord xs last) :
    Separated style afterWord (unified xs) (Text.unifyLineEnds last) := by
  induction xs generalizing afterWord with
  | nil => exact Text.isGapChar_unifyLineEnds h
  | cons x xs ih =>
      obtain ⟨g, x⟩ := x
      cases x with
      | word u =>
          obtain ⟨hg, hu, hne, hxs⟩ := h
          refine ⟨Text.isGapChar_unifyLineEnds hg, hu, fun hw => ?_, ih hxs⟩
          exact mt Text.unifyLineEnds_eq_nil_iff.mp (hne hw)
      | mark m =>
          obtain ⟨hg, hm, hxs⟩ := h
          exact ⟨Text.isGapChar_unifyLineEnds hg, hm, ih hxs⟩

theorem marks_unified (xs : List (Text × Item)) : marks (unified xs) = marks xs := by
  rw [marks, unified, List.filterMap_map]
  rfl

/-! ## Tokens -/

/-- Openings of tags are linked to the ends that follow at once. -/
def Linked (ts : List Token) : Prop :=
  ∀ pre o c post, ts = pre ++ o :: c :: post → o.kind = .tagOpen → c.kind = .tagClose →
    c.closes o.toLexeme = true → o.closed = some c.index

theorem Linked.tail {t : Token} {ts : List Token} (h : Linked (t :: ts)) : Linked ts :=
  fun pre o c post hts => h (t :: pre) o c post (by rw [hts]; rfl)

theorem ofText_spell (plain : PlainStyle style) (h : Separated style false xs last) :
    ∃ ts, Token.ofText (.ofStyle style) (spell xs last) = .ok ts ∧
      ts.map Token.toLexeme = lexemesOf xs last ∧ Linked ts := by
  have hlexemes := lexemesFrom_spell plain Context.ordinary_start h
  refine ⟨Token.link (lexemesOf xs last), congrArg (Except.map Token.link) hlexemes,
    Token.map_toLexeme_link _, ?_⟩
  intro pre o c post hts ho hc hcloses
  exact Token.closed_eq (show _ = pre ++ o :: ([] ++ c :: post) from hts)
    (by simp [Lexeme.opens, ho]) (by simp)
    ⟨by simp [Lexeme.opens, hc], hcloses⟩

/-- The opening of a tag is known from it and the end that follows. -/
theorem Linked.ofToken_eq {o c : Token} {more : List Token} (h : Linked (o :: c :: more))
    (hn : IsName m.written) (ho : o.toLexeme = m.openLexeme g) (hc : c.toLexeme = m.closeLexeme) :
    Tag.ofToken style o (c :: more) = m.tag style o.index := by
  have hkind : o.kind = .tagOpen := congrArg Lexeme.kind ho
  have hcloses : c.closes o.toLexeme = true := by
    rw [hc, ho]
    cases m <;> rfl
  exact Mark.ofToken_eq hn hkind (congrArg Lexeme.text ho)
    (h [] o c more rfl hkind (congrArg Lexeme.kind hc) hcloses) (congrArg Lexeme.text hc)

end EmbeddedMarkup.Html
