import EmbeddedMarkup.Proofs.Html.Items
import EmbeddedMarkup.Proofs.Html.Partition

/-!
# Markup that is read as it is spelled

`Legible` is a grammar of markup with words, comments, and tags with attributes, where no element
has content of its own kind. The grammar says which gaps must not be missing: those between words,
and those before attributes. Markup of this grammar is cut into just the lexemes it is spelled from
(`Legible.lexemesFrom_eq`), whatever the gaps are otherwise.
-/

namespace EmbeddedMarkup.Html

/-- A lexeme as it is spelled, with the gap before it. -/
structure Bit where
  gap : Text
  kind : Kind
  text : Text

def Bit.lexeme (b : Bit) : Lexeme := { kind := b.kind, text := b.text, gap := Gap.ofText {} b.gap }

/-- The text of lexemes with a last gap. -/
def spellBits : List Bit → Text → Text
  | [], last => last
  | b :: bs, last => b.gap ++ (b.text ++ spellBits bs last)

/-- A comment that ends where it should and carries no directives. -/
def IsComment (u : Text) : Prop :=
  ∃ body, u = "<!--".toList ++ (body ++ "-->".toList) ∧ ¬"-->".toList <:+: body ++ "--".toList ∧
    Directives.ofComment? u = none

/-- The name of an attribute, or a value without quotes. -/
structure IsBare (u : Text) : Prop where
  first : ∃ c, u.head? = some c ∧ c ≠ '"' ∧ c ≠ '\''
  chars : ∀ c ∈ u, isGapChar c = false ∧ c ∉ ['=', '>', '<', '{']
  last : u.getLast? ≠ some '/'

def IsQuoted (u : Text) : Prop :=
  ∃ q body, (q = '"' ∨ q = '\'') ∧ u = q :: (body ++ [q]) ∧ q ∉ body ∧ TemplateFree body

/-- Where the next lexeme stands. -/
inductive Site where
  | outside (afterWord : Bool)
  /-- Inside a tag, behind a lexeme of the given kind. -/
  | inside (after : Kind)

/-- Markup with words, comments and ordinary tags. -/
inductive Legible (style : Style.Markup) : Site → List Bit → Prop
  | done {afterWord : Bool} : Legible style (.outside afterWord) []
  | word {afterWord : Bool} {g u : Text} {bs : List Bit} (gap : ∀ c ∈ g, isGapChar c = true)
      (text : IsWord u)
      (apart : afterWord = true → g ≠ []) (rest : Legible style (.outside true) bs) :
      Legible style (.outside afterWord) (⟨g, .text, u⟩ :: bs)
  | comment {afterWord : Bool} {g u : Text} {bs : List Bit} (gap : ∀ c ∈ g, isGapChar c = true)
      (text : IsComment u) (rest : Legible style (.outside false) bs) :
      Legible style (.outside afterWord) (⟨g, .comment, u⟩ :: bs)
  | opening {afterWord : Bool} {g : Text} {m : Mark} {bs : List Bit}
      (gap : ∀ c ∈ g, isGapChar c = true)
      (mark : m.Ordinary style) (rest : Legible style (.inside .tagOpen) bs) :
      Legible style (.outside afterWord) (⟨g, .tagOpen, m.opening⟩ :: bs)
  | attr {k : Kind} {g u : Text} {bs : List Bit} (gap : ∀ c ∈ g, isGapChar c = true)
      (text : IsBare u)
      (apart : g ≠ []) (free : k ≠ .equals) (rest : Legible style (.inside .attrName) bs) :
      Legible style (.inside k) (⟨g, .attrName, u⟩ :: bs)
  | equals {g : Text} {bs : List Bit} (gap : ∀ c ∈ g, isGapChar c = true)
      (rest : Legible style (.inside .equals) bs) :
      Legible style (.inside .attrName) (⟨g, .equals, ['=']⟩ :: bs)
  | value {g u : Text} {bs : List Bit} (gap : ∀ c ∈ g, isGapChar c = true)
      (text : IsBare u ∨ IsQuoted u)
      (rest : Legible style (.inside .value) bs) :
      Legible style (.inside .equals) (⟨g, .value, u⟩ :: bs)
  | closing {k : Kind} {g u : Text} {bs : List Bit} (gap : ∀ c ∈ g, isGapChar c = true)
      (text : u = ['>'] ∨ u = ['/', '>']) (free : k ≠ .equals)
        (rest : Legible style (.outside false) bs) :
      Legible style (.inside k) (⟨g, .tagClose, u⟩ :: bs)

variable {style : Style.Markup} {ctx : Context} {g u last rest : Text} {bs : List Bit} {k : Kind}
  {site : Site}

/-! ## What a lexeme can be followed by -/

theorem mem_iff_isGapChar {c : Char} : c ∈ ['\n', '\r', '\t', ' '] ↔ isGapChar c = true := by
  rw [← mem_gapChars_iff]
  simp only [gapChars, List.mem_cons, List.not_mem_nil, or_false]
  tauto

theorem gap_cons (hg : ∀ c ∈ g, isGapChar c = true) (c : Char) (t : Text) :
    ∃ d t', g ++ c :: t = d :: t' ∧ (d ∈ ['\n', '\r', '\t', ' '] ∨ (g = [] ∧ d = c ∧ t' = t)) := by
  cases g with
  | nil => exact ⟨c, t, rfl, .inr ⟨rfl, rfl, rfl⟩⟩
  | cons d g =>
      exact ⟨d, g ++ c :: t, rfl, .inl (mem_iff_isGapChar.mpr (hg d (List.mem_cons_self ..)))⟩

theorem not_opensTemplate_of_gap {c : Char} (hc : c ∈ ['\n', '\r', '\t', ' ']) (t : Text) :
    opensTemplate (c :: t) = false := by
  apply not_opensTemplate_of_head
  · rintro rfl
    simp at hc
  · rintro rfl
    simp at hc

theorem Legible.stops_word (h : Legible style (.outside true) bs)
    (hlast : ∀ c ∈ last, isGapChar c = true) :
    (Readers.oneOf ['\n', '\r', '\t', ' ', '<']).Stops (spellBits bs last) ∧
      opensTemplate (spellBits bs last) = false := by
  have hcons : ∀ {d : Char} {t : Text}, d ∈ ['\n', '\r', '\t', ' '] →
      (Readers.oneOf ['\n', '\r', '\t', ' ', '<']).Stops (d :: t) ∧
      opensTemplate (d :: t) = false :=
    fun hd => ⟨Readers.oneOf_stops (List.mem_append_left ['<'] hd), not_opensTemplate_of_gap hd _⟩
  have hangle : ∀ {g t : Text}, (∀ c ∈ g, isGapChar c = true) → opensTemplate ('<' :: t) = false →
      (Readers.oneOf ['\n', '\r', '\t', ' ', '<']).Stops (g ++ '<' :: t) ∧
      opensTemplate (g ++ '<' :: t) = false := by
    intro g t hg ht
    obtain ⟨d, t', he, hd | ⟨-, rfl, rfl⟩⟩ := gap_cons hg '<' t
    · rw [he]
      exact hcons hd
    · rw [he]
      exact ⟨Readers.oneOf_stops (by simp), ht⟩
  cases h with
  | done =>
      cases last with
      | nil => exact ⟨.inl rfl, rfl⟩
      | cons c last => exact hcons (mem_iff_isGapChar.mpr (hlast c (List.mem_cons_self ..)))
  | word gap text apart rest =>
      obtain ⟨d, g, rfl⟩ := List.exists_cons_of_ne_nil (apart rfl)
      exact hcons (mem_iff_isGapChar.mpr (gap d (List.mem_cons_self ..)))
  | comment gap text rest =>
      obtain ⟨body, rfl, -, -⟩ := text
      exact hangle gap rfl
  | opening gap mark rest => exact hangle gap (Mark.opening_plain mark.name)

/-- Inside a tag what follows starts with a gap or with one of the signs of tags. -/
theorem Legible.inside_cons (h : Legible style (.inside k) bs) (hk : k ≠ .equals) (last : Text) :
    ∃ c t, spellBits bs last = c :: t ∧
      (c ∈ ['\n', '\r', '\t', ' '] ∨ (c = '=' ∧ k = .attrName) ∨ c = '>' ∨
        (c = '/' ∧ t.head? = some '>')) := by
  cases h with
  | attr gap text apart free rest =>
      obtain ⟨c, g, rfl⟩ := List.exists_cons_of_ne_nil apart
      exact ⟨c, _, rfl, .inl (mem_iff_isGapChar.mpr (gap c (List.mem_cons_self ..)))⟩
  | equals gap rest =>
      obtain ⟨d, t, he, hd⟩ := gap_cons gap '=' (spellBits _ last)
      exact ⟨d, t, he, hd.imp_right fun hd => .inl ⟨hd.2.1, rfl⟩⟩
  | value gap text rest => exact absurd rfl hk
  | closing gap text free rest =>
      rcases text with rfl | rfl
      · obtain ⟨d, t, he, hd⟩ := gap_cons gap '>' (spellBits _ last)
        exact ⟨d, t, he, hd.imp_right fun hd => .inr (.inl hd.2.1)⟩
      · obtain ⟨d, t, he, hd⟩ := gap_cons gap '/' ('>' :: spellBits _ last)
        exact ⟨d, t, he, hd.imp_right fun hd => .inr (.inr ⟨hd.2.1, by rw [hd.2.2]; rfl⟩)⟩

theorem Legible.inside_plain (h : Legible style (.inside k) bs) (hk : k ≠ .equals) (last : Text) :
    opensTemplate (spellBits bs last) = false := by
  obtain ⟨c, t, ht, hc⟩ := h.inside_cons hk last
  rw [ht]
  rcases hc with hc | ⟨rfl, -⟩ | rfl | ⟨rfl, -⟩
  · exact not_opensTemplate_of_gap hc t
  · rfl
  · rfl
  · rfl

theorem Legible.stops_element (h : Legible style (.inside .tagOpen) bs) (last : Text) :
    (Readers.oneOf ['\n', '\r', '\t', ' ', '>', '/']).Stops (spellBits bs last) := by
  obtain ⟨c, t, ht, hc⟩ := h.inside_cons Kind.noConfusion last
  rw [ht]
  apply Readers.oneOf_stops
  rcases hc with hc | ⟨-, hk⟩ | rfl | ⟨rfl, -⟩
  · exact List.mem_append_left ['>', '/'] hc
  · cases hk
  · simp
  · simp

/-- What ends an attribute. -/
def attrStop : Recognizer :=
  (Readers.oneOf ['\n', '\r', '\t', ' ', '=', '>']).orElse (.literal ['/', '>'])

theorem Legible.stops_attr (h : Legible style (.inside k) bs) (hk : k ≠ .equals) (last : Text) :
    attrStop.Stops (spellBits bs last) := by
  obtain ⟨c, t, ht, hc⟩ := h.inside_cons hk last
  rw [ht]
  refine .inr ?_
  rcases hc with hc | ⟨rfl, -⟩ | rfl | ⟨rfl, hnext⟩
  · simp only [List.mem_cons, List.not_mem_nil, or_false] at hc
    rcases hc with rfl | rfl | rfl | rfl <;> rfl
  · rfl
  · rfl
  · obtain ⟨t', rfl⟩ := List.head?_eq_some_iff.mp hnext
    simp [attrStop, Recognizer.orElse, Readers.oneOf, Recognizer.one, Recognizer.literal]

/-! ## Reading inside tags -/

/-- Inside an ordinary tag, behind a lexeme of the given kind. -/
structure Context.Within (style : Style.Markup) (ctx : Context) (k : Kind) : Prop where
  previous : ctx.previous.kind = k
  opened : ∃ (m : Mark) (g : Text), m.Ordinary style ∧ ctx.opened = [m.openLexeme g]

theorem Context.Within.openStartsWith (h : ctx.Within style k) : ctx.openStartsWith '<' = true := by
  obtain ⟨m, g, -, hopened⟩ := h.opened
  rw [Context.openStartsWith, hopened]
  rfl

theorem Context.Within.advance (h : ctx.Within style k) {l : Lexeme}
    (hl : l.kind = .attrName ∨ l.kind = .equals ∨ l.kind = .value) :
    (ctx.advance l).Within style l.kind := by
  obtain ⟨m, g, hm, hopened⟩ := h.opened
  have hopens : l.opens = false := by rcases hl with hl | hl | hl <;> simp [Lexeme.opens, hl]
  have hcloses : l.closes (m.openLexeme g) = false := by rcases hl with
      hl | hl | hl <;> simp [Lexeme.closes, hl]
  have hadvance : ctx.advance l = { previous := l, opened := [m.openLexeme g] } := by
    simp [Context.advance, hopens, hopened, hcloses]
  rw [hadvance]
  exact ⟨rfl, m, g, hm, rfl⟩

theorem IsBare.ne_nil (h : IsBare u) : u ≠ [] := by
  obtain ⟨c, hc, -⟩ := h.first
  rintro rfl
  cases hc

theorem IsBare.head (h : IsBare u) : ∃ c, u.head? = some c ∧ isGapChar c = false := by
  obtain ⟨c, hc, -⟩ := h.first
  exact ⟨c, hc, (h.chars c (List.mem_of_head? hc)).1⟩

theorem IsBare.attrStop_eq_none (h : IsBare u) {v : Text} (hv : v <:+ u) (hne : v ≠ []) :
    attrStop (v ++ rest) = none := by
  obtain ⟨c, v, rfl⟩ := List.exists_cons_of_ne_nil hne
  obtain ⟨hgap, hsign⟩ := h.chars c (hv.subset (List.mem_cons_self ..))
  have hstop : c ∉ ['\n', '\r', '\t', ' ', '=', '>'] := by
    intro hmem
    rcases List.mem_append.mp (show c ∈ ['\n', '\r', '\t', ' '] ++ ['=', '>'] from hmem) with
        hmem | hmem
    · rw [mem_iff_isGapChar.mp hmem] at hgap
      cases hgap
    · exact hsign (List.mem_append_left ['<', '{'] hmem)
  have hend : Recognizer.literal ['/', '>'] (c :: v ++ rest) = none := by
    by_cases hc : c = '/'
    · subst hc
      cases v with
      | nil =>
          obtain ⟨w, rfl⟩ := hv
          exact absurd (by simp) h.last
      | cons d v =>
          have hd := (h.chars d (hv.subset (by simp))).2
          have hne : '>' ≠ d := by
            rintro rfl
            simp at hd
          simp [Recognizer.literal, hne]
    · exact Recognizer.literal_cons_ne hc
  rw [attrStop, Recognizer.orElse, hend, Option.or_none]
  exact Readers.oneOf_eq_none hstop

/-- Inside a tag, an attribute or a value without quotes is read up to its end. -/
theorem piece_bare (hctx : ctx.Within style k) (hu : IsBare u) (hstops : attrStop.Stops rest)
    (hplain : opensTemplate rest = false) :
    (Readers.ofStyle style).piece ctx (u ++ rest) =
      .ok { kind := if k = .equals then .value else .attrName, length := u.length } := by
  have hhead : ∀ c ∈ u, ∀ t, opensTemplate (c :: t) = false := by
    intro c hc t
    have hsign := (hu.chars c hc).2
    simp only [List.mem_cons, List.not_mem_nil, or_false, not_or] at hsign
    exact not_opensTemplate_of_head hsign.2.2.2 hsign.2.2.1
  have hlength : (Readers.ofStyle style).attrName.length (u ++ rest) = u.length := by
    refine (Readers.direct_attrName style).length_append rfl
      (fun v hv hne => ⟨?_, hu.attrStop_eq_none hv hne⟩)
      hstops hplain
    obtain ⟨c, v, rfl⟩ := List.exists_cons_of_ne_nil hne
    exact hhead c (hv.subset (List.mem_cons_self ..)) _
  obtain ⟨c, hc, hdouble, hsingle⟩ := hu.first
  obtain ⟨w, rfl⟩ := List.head?_eq_some_iff.mp hc
  have hequals : c ≠ '=' := by
    rintro rfl
    exact (hu.chars '=' (List.mem_cons_self ..)).2 (by simp)
  refine Readers.piece_of_insideTag (Readers.handlebars_eq_none
    (Readers.not_braces_of_not_opensTemplate (hhead c (List.mem_cons_self ..) _))) ?_
  rw [List.cons_append] at hlength ⊢
  rw [Readers.insideTag, hctx.openStartsWith, hlength, hctx.previous]
  by_cases hk : k = .equals <;> simp [hequals, hdouble, hsingle, hk, Piece.ofLength]

/-- A sign that belongs to no placeholder makes none. -/
theorem not_opensTemplate_append {v : Text} {q : Char} (hv : opensTemplate v = false)
    (hq : q ∉ ['{', '<', '%', '?']) : opensTemplate (v ++ q :: rest) = false := by
  simp only [List.mem_cons, List.not_mem_nil, or_false, not_or] at hq
  obtain ⟨hbrace, hangle, hpercent, hquestion⟩ := hq
  rcases v with - | ⟨c, v⟩
  · exact not_opensTemplate_of_head hbrace hangle
  · by_cases hc : c = '<'
    · subst hc
      rcases v with - | ⟨d, v⟩
      · unfold opensTemplate
        split <;> simp_all
      · obtain ⟨hpercent', hquestion'⟩ := next_ne_of_not_opensTemplate hv
        unfold opensTemplate
        split <;> simp_all
    · exact not_opensTemplate_of_head (head_ne_of_not_opensTemplate hv) hc

theorem piece_quoted (hctx : ctx.Within style k) (hu : IsQuoted u) :
    (Readers.ofStyle style).piece ctx (u ++ rest) = .ok { kind := .value, length := u.length } := by
  obtain ⟨q, body, hq, rfl, hbody, hfree⟩ := hu
  have hplain : ∀ v, v <:+ body → opensTemplate (v ++ q :: rest) = false := by
    intro v hv
    exact not_opensTemplate_append (hfree v hv) (by rcases hq with rfl | rfl <;> decide)
  have hstop : ∀ v, v <:+ body → v ≠ [] → Recognizer.literal [q] (v ++ q :: rest) = none := by
    intro v hv hne
    obtain ⟨c, v, rfl⟩ := List.exists_cons_of_ne_nil hne
    refine Recognizer.literal_cons_ne ?_
    rintro rfl
    exact hbody (hv.subset (List.mem_cons_self ..))
  have hhere : Recognizer.literal [q] (q :: rest) = some 1 := by simp [Recognizer.literal]
  have hlength : ∀ {p : TemplateReader}, p.Direct (.literal [q]) → p.inclusive = true →
      p.length (body ++ q :: rest) = body.length + 1 :=
    fun hdirect hinclusive => hdirect.length_through hinclusive
      (fun v hv hne => ⟨hplain v hv, hstop v hv hne⟩) hhere (List.cons_ne_nil _ _)
        (hplain [] List.nil_suffix)
  have htext : q :: (body ++ [q]) ++ rest = q :: (body ++ q :: rest) := by simp
  rw [htext]
  have hinside : (Readers.ofStyle style).insideTag ctx (q :: (body ++ q :: rest)) =
      some { kind := .value, length := (q :: (body ++ [q])).length } := by
    have hsum : 1 + (body.length + 1) = (q :: (body ++ [q])).length := by simp [Nat.add_comm]
    rcases hq with rfl | rfl
    · rw [Readers.insideTag, hctx.openStartsWith, hlength (Readers.direct_doubleQuoted style) rfl,
        ← hsum]
      rfl
    · rw [Readers.insideTag, hctx.openStartsWith, hlength (Readers.direct_singleQuoted style) rfl,
        ← hsum]
      rfl
  refine Readers.piece_of_insideTag (Readers.handlebars_eq_none ?_) hinside
  rintro ⟨t, ht⟩
  have := (List.cons.inj ht).1
  rcases hq with rfl | rfl <;> cases this

theorem piece_equals (hctx : ctx.Within style k) :
    (Readers.ofStyle style).piece ctx ('=' :: rest) = .ok { kind := .equals, length := 1 } := by
  refine Readers.piece_of_insideTag (Readers.handlebars_eq_none (by simp)) ?_
  rw [Readers.insideTag, hctx.openStartsWith]
  rfl

theorem length_between {a b body : Text} (ha : a ≠ []) (hb : b ≠ [])
    (hbody : ∀ v, v <:+ body → v ≠ [] → ¬b <+: v ++ (b ++ rest)) :
    (Reader.between a b).length (a ++ (body ++ (b ++ rest))) = (a ++ (body ++ b)).length := by
  have hopening : (Recognizer.literal a).atText (a ++ (body ++ (b ++ rest))) = some a.length := by
    simp [Recognizer.atText, Recognizer.literal, ha]
  have hpast : (Recognizer.literal b).reachPast (body ++ (b ++ rest)) = body.length + b.length := by
    refine Recognizer.reachPast_append (fun v hv hne => ?_) (by simp [Recognizer.literal])
    simpa [Recognizer.literal] using hbody v hv hne
  have hfirst : Reader.partLength (Reader.between a b).opening none false
      (a ++ (body ++ (b ++ rest))) = a.length := by
    change Reader.partLength (some (.literal a)) none false _ = _
    simp [Reader.partLength, hopening, Reader.stopLength]
  have hsecond : Reader.partLength (Reader.between a b).body (Reader.between a b).stop
      (Reader.between a b).inclusive
      (body ++ (b ++ rest)) = body.length + b.length := by
    have hne : (body ++ (b ++ rest)).isEmpty = false := by simp [hb]
    change Reader.stopLength (some (.literal b)) true _ = _
    rw [Reader.stopLength, hne]
    exact hpast
  simp [Reader.length, hfirst, hsecond, ha]

theorem piece_comment (plain : PlainStyle style) (hctx : ctx.Ordinary style) (hu : IsComment u) :
    (Readers.ofStyle style).piece ctx
      (u ++ rest) = .ok { kind := .comment, length := u.length } := by
  obtain ⟨body, rfl, hend, hdirectives⟩ := hu
  have hlength : (Reader.between "<!--".toList "-->".toList).length
      ("<!--".toList ++ (body ++ "-->".toList) ++ rest) = ("<!--".toList ++
          (body ++ "-->".toList)).length := by
    rw [List.append_assoc, List.append_assoc]
    refine length_between (by decide) (by decide) fun v hv hne hprefix => hend ?_
    have hshort : "-->".toList <+: v ++ "--".toList := by
      refine List.prefix_of_prefix_length_le hprefix ⟨'>' :: rest, by simp⟩ ?_
      have hpos := List.length_pos_iff.mpr hne
      rw [List.length_append]
      exact Nat.add_le_add_right hpos 2
    obtain ⟨w, rfl⟩ := hv
    rw [List.append_assoc]
    exact hshort.isInfix.trans (List.suffix_append ..).isInfix
  have hcomment : Readers.comment ("<!--".toList ++ (body ++ "-->".toList) ++ rest) =
      .ok (some
        { kind := .comment, length := ("<!--".toList ++ (body ++ "-->".toList)).length }) := by
    unfold Readers.comment
    split
    · next hzero =>
        rw [hlength] at hzero
        simp at hzero
    · next n hn =>
        have hn : n + 1 = _ := hn.symm.trans hlength
        dsimp only
        rw [hn, List.take_left, hdirectives]
  have hfree : ∀ t, opensTemplate ('<' :: '!' :: t) = false := fun t => rfl
  exact (hctx.passed plain (by simp)).comment (hctx.rawContent _)
    (Readers.contentWord_angle plain.delimiter hctx.opened (hfree _)) hcomment

/-! ## Reading markup -/

/-- A context in which the next lexeme stands at the given site. -/
def Site.Fits (style : Style.Markup) (ctx : Context) : Site → Prop
  | outside _ => ctx.Ordinary style
  | inside k => ctx.Within style k

theorem Context.Within.ordinary (h : ctx.Within style k) {l : Lexeme} (hkind : l.kind = .tagClose)
    (htext : l.text = ['>'] ∨ l.text = ['/', '>']) : (ctx.advance l).Ordinary style := by
  obtain ⟨m, g, hm, hopened⟩ := h.opened
  have hopens : l.opens = false := by simp [Lexeme.opens, hkind]
  have hcloses : l.closes (m.openLexeme g) = true := by
    rcases htext with htext |
      htext <;> simp [Lexeme.closes, hkind, htext, Mark.openLexeme, Mark.opening, Lexeme.startsWith]
  have hadvance : ctx.advance l = { previous := l, closed := some (m.openLexeme g) } := by
    simp [Context.advance, hopens, hopened, hcloses]
  have hcheck : ∀ n, (ctx.advance l).contentOf? = some n → n = m.check := by
    intro n hn
    rw [hadvance, Context.contentOf?] at hn
    split at hn
    · simpa [Mark.openLexeme, Mark.opening, Lexeme.startsWith, Mark.lower_inner hm.name,
        eq_comm] using hn
    · cases hn
  refine ⟨by rw [hadvance], fun n hn => hcheck n hn ▸ hm.script, fun n hn => ?_⟩
  rw [hcheck n hn]
  have hstyle : (Readers.ofStyle style).style = style := rfl
  simp [Readers.leavesContent, hstyle, hm.unformatted, hm.content]

theorem lexemesFrom_bit {b : Bit} {ls : List Lexeme} (hgap : ∀ c ∈ b.gap, isGapChar c = true)
    (hhead : ∃ c, b.text.head? = some c ∧ isGapChar c = false)
    (hpiece : (Readers.ofStyle style).piece ctx (b.text ++ rest) =
      .ok { kind := b.kind, length := b.text.length })
    (hrest : lexemesFrom (.ofStyle style) (ctx.advance b.lexeme) rest = .ok ls) :
    lexemesFrom (.ofStyle style) ctx (b.gap ++ (b.text ++ rest)) = .ok (b.lexeme :: ls) := by
  rw [lexemesFrom_append hgap hhead hpiece rfl]
  rw [show Piece.lexeme { kind := b.kind, length := b.text.length } b.gap b.text = b.lexeme
    from rfl, hrest]
  rfl

/-- Markup is cut into the lexemes that it is spelled from. -/
theorem Legible.lexemesFrom_eq (plain : PlainStyle style) (h : Legible style site bs)
    (hlast : ∀ c ∈ last, isGapChar c = true) (hctx : site.Fits style ctx) :
    lexemesFrom (.ofStyle style) ctx (spellBits bs last) =
      .ok (bs.map Bit.lexeme ++ [{ kind := .eof, text := [], gap := Gap.ofText {} last }]) := by
  induction h generalizing ctx with
  | done => exact lexemesFrom_gap hlast
  | @word afterWord g u bs gap text apart rest ih =>
      rw [spellBits, lexemesFrom_word plain hctx gap text (rest.stops_word hlast),
        ih (Context.ordinary_of_none rfl rfl)]
      rfl
  | @comment afterWord g u bs gap text rest ih =>
      have hadvance : ctx.advance (Bit.lexeme ⟨g, .comment, u⟩) =
          { previous := Bit.lexeme ⟨g, .comment, u⟩ } := by
        have hopened : ctx.opened = [] := hctx.opened
        simp [Context.advance, Lexeme.opens, Bit.lexeme, hopened]
      refine lexemesFrom_bit (b := ⟨g, .comment, u⟩) gap ?_ (piece_comment plain hctx text) (ih ?_)
      · obtain ⟨body, rfl, -⟩ := text
        exact ⟨'<', rfl, by decide⟩
      · rw [hadvance]
        exact Context.ordinary_of_none rfl rfl
  | @opening afterWord g m bs gap mark rest ih =>
      have hopened : ctx.opened = [] := hctx.opened
      refine lexemesFrom_bit (b := ⟨g, .tagOpen, m.opening⟩) gap ⟨'<', rfl, by decide⟩ ?_ (ih ?_)
      · exact Mark.piece_opening mark.name plain.delimiter hopened (rest.stops_element last)
          (rest.inside_plain Kind.noConfusion last)
            (Context.Ordinary.passed hctx plain (by simp [Mark.opening]))
          (Context.Ordinary.rawContent hctx _)
      · exact ⟨rfl, m, g,
          mark, by simp [Context.advance, Lexeme.opens, Bit.lexeme, Mark.openLexeme, hopened]⟩
  | @attr k g u bs gap text apart free rest ih =>
      have hpiece :=
        piece_bare hctx text (rest.stops_attr Kind.noConfusion last)
          (rest.inside_plain Kind.noConfusion last)
      rw [if_neg free] at hpiece
      exact lexemesFrom_bit (b := ⟨g, .attrName, u⟩) gap text.head hpiece
        (ih (Context.Within.advance hctx (.inl rfl)))
  | @equals g bs gap rest ih =>
      exact lexemesFrom_bit (b := ⟨g, .equals, ['=']⟩) gap ⟨'=', rfl, by decide⟩ (piece_equals hctx)
        (ih (Context.Within.advance hctx (.inr (.inl rfl))))
  | @value g u bs gap text rest ih =>
      refine lexemesFrom_bit (b := ⟨g, .value, u⟩) gap ?_ ?_
        (ih (Context.Within.advance hctx (.inr (.inr rfl))))
      · rcases text with text | ⟨q, body, hq, rfl, -⟩
        · exact text.head
        · exact ⟨q, rfl, by rcases hq with rfl | rfl <;> decide⟩
      · rcases text with text | text
        · exact piece_bare hctx text (rest.stops_attr Kind.noConfusion last)
            (rest.inside_plain Kind.noConfusion last)
        · exact piece_quoted hctx text
  | @closing k g u bs gap text free rest ih =>
      refine lexemesFrom_bit (b := ⟨g, .tagClose, u⟩) gap ?_ ?_
        (ih (Context.Within.ordinary hctx rfl text))
      · rcases text with rfl | rfl
        · exact ⟨'>', rfl, by decide⟩
        · exact ⟨'/', rfl, by decide⟩
      · obtain ⟨m, g', -, hopened⟩ := Context.Within.opened hctx
        rcases text with rfl | rfl
        · exact Mark.piece_closing (m := .start []) hopened rfl rfl
        · exact Mark.piece_closing (m := .single []) hopened rfl rfl

end EmbeddedMarkup.Html
