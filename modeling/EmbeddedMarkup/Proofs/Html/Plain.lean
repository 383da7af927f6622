import EmbeddedMarkup.Proofs.Html.Lexing
import EmbeddedMarkup.Proofs.Text.Reading
import Mathlib.Data.List.Infix

/-!
# Reading where no placeholder starts

A placeholder of a template language starts with a brace, or with an angle bracket before a percent
sign or a question mark. Where none starts, a word, an attribute or an element name runs just up to
its stop, whatever template languages are in use (`TemplateReader.length_append`).

The lexer tries its readers in a fixed order. `piece_of_insideTag` and the lemmas after it say when
each of them has its turn.
-/

namespace EmbeddedMarkup

namespace Recognizer

variable {r : Recognizer} {rs : List Recognizer} {u rest t : Text}

theorem search_append (hu : ∀ v, v <:+ u → v ≠ [] → r (v ++ rest) = none) :
    r.search (u ++ rest) = (r.search rest).map fun m => (m.1 + u.length, m.2) := by
  induction u with
  | nil => simp
  | cons c u ih =>
      have hhere : r (c :: (u ++ rest)) = none := hu (c :: u) List.suffix_rfl (by simp)
      have hmore := ih fun v hv => hu v (hv.trans (List.suffix_cons c u))
      rw [List.cons_append, search, hhere, hmore, Option.map_map]
      simp [Function.comp_def, Nat.add_assoc]

theorem reach_append (hu : ∀ v, v <:+ u → v ≠ [] → r (v ++ rest) = none) (hrest : r.Stops rest) :
    r.reach (u ++ rest) = u.length := by
  unfold reach
  rw [search_append hu]
  rcases hrest with rfl | hsome
  · cases hr : r [] <;> simp [search, hr]
  · obtain ⟨n, hn⟩ := Option.isSome_iff_exists.mp hsome
    cases rest <;> simp [search, hn]

theorem reachPast_append {n : Nat} (hu : ∀ v, v <:+ u → v ≠ [] → r (v ++ rest) = none)
    (hrest : r rest = some n) : r.reachPast (u ++ rest) = u.length + n := by
  unfold reachPast
  rw [search_append hu]
  cases rest <;> simp [search, hrest]

theorem firstOf_concat (hrs : ∀ s ∈ rs, s t = none) : firstOf (rs ++ [r]) t = r t := by
  induction rs with
  | nil => simp [firstOf, orElse]
  | cons s rs ih =>
      have hs := hrs s (List.mem_cons_self ..)
      have hmore := ih fun s' hs' => hrs s' (List.mem_cons_of_mem s hs')
      unfold firstOf at hmore ⊢
      rw [List.cons_append, List.foldr_cons, orElse, hs, hmore, Option.none_or]

theorem literal_cons_ne {c d : Char} {p : Text} (h : d ≠ c) : literal (c :: p) (d :: t) = none := by
  simp [literal, h.symm]

end Recognizer

namespace Html

open Recognizer (Stops)

/-- Whether a placeholder could start here. -/
def opensTemplate : Text → Bool
  | '{' :: _ => true
  | '<' :: '%' :: _ => true
  | '<' :: '?' :: _ => true
  | _ => false

/-- Nowhere in the text could a placeholder start. -/
def TemplateFree (t : Text) : Prop := ∀ v, v <:+ t → opensTemplate v = false

section

variable {t u rest : Text} {c : Char}

instance (t : Text) : Decidable (TemplateFree t) :=
  decidable_of_iff (∀ v ∈ t.tails, opensTemplate v = false) (by simp [TemplateFree, List.mem_tails])

theorem not_opensTemplate_of_head (hbrace : c ≠ '{') (hangle : c ≠ '<') :
    opensTemplate (c :: t) = false := by
  unfold opensTemplate
  split <;> simp_all

theorem head_ne_of_not_opensTemplate (h : opensTemplate (c :: t) = false) : c ≠ '{' := by
  rintro rfl
  simp [opensTemplate] at h

theorem next_ne_of_not_opensTemplate {d : Char} (h : opensTemplate ('<' :: d :: t) = false) :
    d ≠ '%' ∧ d ≠ '?' := by
  constructor
  · rintro rfl
    simp [opensTemplate] at h
  · rintro rfl
    simp [opensTemplate] at h

end

namespace Template

variable {t : Text}

theorem literal_brace (p : Text) (h : opensTemplate t = false) :
    Recognizer.literal ('{' :: p) t = none := by
  cases t with
  | nil => rfl
  | cons c t => exact Recognizer.literal_cons_ne (head_ne_of_not_opensTemplate h)

theorem literal_angle {m : Char} (hm : m = '%' ∨ m = '?') (h : opensTemplate t = false) :
    Recognizer.literal ['<', m] t = none := by
  unfold Recognizer.literal
  rw [if_neg]
  intro hp
  obtain ⟨rest, rfl⟩ := List.isPrefixOf_iff_prefix.mp hp
  have hne := next_ne_of_not_opensTemplate h
  rcases hm with rfl | rfl
  · exact hne.1 rfl
  · exact hne.2 rfl

theorem phpStart_eq_none (h : opensTemplate t = false) : phpStart t = none := by
  have hstart : Recognizer.literal "<?".toList t = none := literal_angle (.inr rfl) h
  unfold phpStart Recognizer.andThen
  rw [hstart, Option.bind_none]

theorem erbStart_eq_none (h : opensTemplate t = false) : erbStart t = none := by
  have hstart : Recognizer.literal "<%".toList t = none := literal_angle (.inl rfl) h
  unfold erbStart Recognizer.andThen
  rw [hstart, Option.bind_none]

theorem smartyStart_eq_none (h : opensTemplate t = false) : smartyStart t = none := by
  have hstart : Recognizer.literal "\x7b".toList t = none := literal_brace [] h
  unfold smartyStart Recognizer.andThen
  rw [hstart, Option.bind_none]

theorem starts_eq_none {l : Template} {r : Recognizer} (hr : r ∈ l.starts)
    (h : opensTemplate t = false) : r t = none := by
  cases l <;> simp only [starts, List.mem_cons, List.not_mem_nil, or_false] at hr
  case angular => exact hr ▸ literal_brace ['{'] h
  case django =>
    rcases hr with rfl | rfl | rfl
    · exact literal_brace ['%'] h
    · exact literal_brace ['{'] h
    · exact literal_brace ['#'] h
  case erb => exact hr ▸ erbStart_eq_none h
  case handlebars => exact hr ▸ literal_brace ['{'] h
  case php => exact hr ▸ phpStart_eq_none h
  case smarty => exact hr ▸ smartyStart_eq_none h

end Template

namespace TemplateReader

variable {p : TemplateReader} {r : Recognizer} {t u rest : Text}

theorem boundary_eq (hstop : p.stop = some r) (h : opensTemplate t = false) :
    p.boundary t = r t := by
  have hboundary : p.boundary =
      .firstOf ((Template.all.filter p.uses).flatMap Template.starts ++ [r]) := by
    unfold boundary
    rw [hstop]
    split
    · next hnil => simp at hnil
    · rfl
  rw [hboundary]
  refine Recognizer.firstOf_concat fun s hs => ?_
  obtain ⟨l, -, hl⟩ := List.mem_flatMap.mp hs
  exact Template.starts_eq_none hl h

theorem length_eq_zero_of_opening {q : Reader} {s : Recognizer} (hq : q.opening = some s)
    (hs : s t = none) : q.length t = 0 := by
  have hat : s.atText t = none := by simp [Recognizer.atText, hs]
  simp [Reader.length, Reader.partLength, hq, hat]

theorem placeholderLength_eq_zero (h : opensTemplate t = false) : p.placeholderLength t = 0 := by
  cases t with
  | nil => rfl
  | cons c t =>
      have hfirst : ∀ rs : List Reader, (∀ q ∈ rs, q.length (c :: t) = 0) →
          firstLength rs (c :: t) = 0 := by
        intro rs hrs
        induction rs with
        | nil => rfl
        | cons q rs ih =>
            rw [firstLength, if_pos (hrs q (List.mem_cons_self ..))]
            exact ih fun q' hq' => hrs q' (List.mem_cons_of_mem q hq')
      refine hfirst _ fun q hq => ?_
      unfold placeholders at hq
      rw [if_neg (head_ne_of_not_opensTemplate h)] at hq
      split at hq
      · rcases List.mem_append.mp hq with hq | hq
        · have hq : q ∈ Template.phpReaders := by
            split at hq
            · exact hq
            · simp at hq
          rw [List.mem_singleton.mp hq]
          exact length_eq_zero_of_opening rfl (Template.phpStart_eq_none h)
        · have hq : q ∈ Template.erbReaders := by
            split at hq
            · exact hq
            · simp at hq
          rw [List.mem_singleton.mp hq]
          exact length_eq_zero_of_opening rfl (Template.erbStart_eq_none h)
      · simp at hq

theorem placeholdersLength_eq_zero (h : opensTemplate t = false) : p.placeholdersLength t = 0 := by
  cases t with
  | nil => simp [placeholdersLength]
  | cons c t => simp [placeholdersLength, placeholderLength_eq_zero h]

/-- The reader has neither an opening nor a body, so it starts at once. -/
structure Direct (p : TemplateReader) (r : Recognizer) : Prop where
  opening : p.opening = none
  body : p.body = none
  stop : p.stop = some r

theorem Direct.first_eq (h : p.Direct r) (hu : ∀ v, v <:+ u → v ≠ [] →
      opensTemplate (v ++ rest) = false ∧ r (v ++ rest) = none)
    (hrest : r.Stops rest) (hfree : opensTemplate rest = false) :
    Reader.partLength p.opening (some p.boundary) false (u ++ rest) = u.length := by
  have hboundary : ∀ v, v <:+ u → v ≠ [] → p.boundary (v ++ rest) = none := fun v hv hne => by
    rw [boundary_eq h.stop (hu v hv hne).1, (hu v hv hne).2]
  have hstops : p.boundary.Stops rest := by
    rcases hrest with rfl | hsome
    · exact .inl rfl
    · exact .inr (by rw [boundary_eq h.stop hfree]; exact hsome)
  have hreach := Recognizer.reach_append hboundary hstops
  rw [h.opening]
  cases hw : u ++ rest with
  | nil =>
      obtain ⟨rfl, -⟩ := List.append_eq_nil_iff.mp hw
      rfl
  | cons c w => simpa [Reader.partLength, Reader.stopLength, hw] using hreach

theorem Direct.length_append (h : p.Direct r) (hinclusive : p.inclusive = false)
    (hu : ∀ v, v <:+ u → v ≠ [] → opensTemplate (v ++ rest) = false ∧ r (v ++ rest) = none)
    (hrest : r.Stops rest) (hfree : opensTemplate rest = false) :
    p.length (u ++ rest) = u.length := by
  simp [length, h.body, hinclusive, h.first_eq hu hrest hfree, placeholdersLength_eq_zero hfree]

theorem Direct.length_through {n : Nat} (h : p.Direct r) (hinclusive : p.inclusive = true)
    (hu : ∀ v, v <:+ u → v ≠ [] → opensTemplate (v ++ rest) = false ∧ r (v ++ rest) = none)
    (hrest : r rest = some n) (hne : rest ≠ []) (hfree : opensTemplate rest = false) :
    p.length (u ++ rest) = u.length + n := by
  have hfirst := h.first_eq hu (.inr (by simp [hrest])) hfree
  have hpast : Reader.stopLength (some r) true rest = n := by
    have := Recognizer.reachPast_append (u := []) (r := r) (by simp) hrest
    cases rest with
    | nil => exact absurd rfl hne
    | cons c rest => simpa [Reader.stopLength] using this
  simp [length, h.body, h.stop, hinclusive, hfirst, placeholdersLength_eq_zero hfree, hpast]

end TemplateReader

namespace Readers

open TemplateReader (Direct)

variable {style : Style.Markup} {ctx : Context} {t u rest : Text} {p : Piece}

theorem oneOf_eq_none {cs : List Char} {c : Char} (h : c ∉ cs) : oneOf cs (c :: t) = none := by
  simp [oneOf, Recognizer.one, h]

theorem oneOf_stops {cs : List Char} {c : Char} (h : c ∈ cs) : (oneOf cs).Stops (c :: t) := by
  simp [Recognizer.Stops, oneOf, Recognizer.one, h]

theorem direct_word (style : Style.Markup) :
    (ofStyle style).word.Direct (oneOf ['\n', '\r', '\t', ' ', '<']) := by
  unfold ofStyle
  dsimp only
  split <;> exact ⟨rfl, rfl, rfl⟩

theorem word_inclusive (style : Style.Markup) : (ofStyle style).word.inclusive = false := by
  unfold ofStyle
  dsimp only
  split <;> rfl

theorem direct_elementName (style : Style.Markup) :
    (ofStyle style).elementName.Direct (oneOf ['\n', '\r', '\t', ' ', '>', '/']) := ⟨rfl, rfl, rfl⟩

theorem direct_attrName (style : Style.Markup) :
    (ofStyle style).attrName.Direct
      ((oneOf ['\n', '\r', '\t', ' ', '=', '>']).orElse (.literal ['/', '>'])) := ⟨rfl, rfl, rfl⟩

theorem direct_singleQuoted (style : Style.Markup) :
    (ofStyle style).singleQuoted.Direct (.literal ['\'']) := ⟨rfl, rfl, rfl⟩

theorem direct_doubleQuoted (style : Style.Markup) :
    (ofStyle style).doubleQuoted.Direct (.literal ['"']) := ⟨rfl, rfl, rfl⟩

theorem oneOf_append {cs : List Char} (hu : ∀ c ∈ u, c ∉ cs) {v : Text} (hv : v <:+ u)
    (hne : v ≠ []) :
    oneOf cs (v ++ rest) = none := by
  cases v with
  | nil => exact absurd rfl hne
  | cons c v => exact oneOf_eq_none (hu c (hv.subset (List.mem_cons_self ..)))

theorem elementName_append (hu : ∀ c ∈ u, c ∉ ['\n', '\r', '\t', ' ', '>', '/'])
    (hfree : ∀ v, v <:+ u → opensTemplate (v ++ rest) = false)
    (hrest : (oneOf ['\n', '\r', '\t', ' ', '>', '/']).Stops rest) :
    (ofStyle style).elementName.length (u ++ rest) = u.length :=
  (direct_elementName style).length_append rfl
    (fun v hv hne => ⟨hfree v hv, oneOf_append hu hv hne⟩) hrest (hfree [] List.nil_suffix)

theorem word_append (hu : ∀ c ∈ u, c ∉ ['\n', '\r', '\t', ' ', '<'])
    (hfree : ∀ v, v <:+ u → opensTemplate (v ++ rest) = false)
    (hrest : (oneOf ['\n', '\r', '\t', ' ', '<']).Stops rest) :
    (ofStyle style).word.length (u ++ rest) = u.length :=
  (direct_word style).length_append (word_inclusive style)
    (fun v hv hne => ⟨hfree v hv, oneOf_append hu hv hne⟩) hrest (hfree [] List.nil_suffix)

/-! ## Whose turn it is -/

variable {rs : Readers}

theorem piece_of_insideTag (h₁ : rs.handlebars ctx t = none) (h : rs.insideTag ctx t = some p) :
    rs.piece ctx t = .ok p := by
  simp [piece, h₁, h, pure, Except.pure]

theorem piece_of_close (h₁ : rs.handlebars ctx t = none) (h₂ : rs.insideTag ctx t = none)
    (h : Readers.close ctx t = some p) : rs.piece ctx t = .ok p := by
  simp [piece, h₁, h₂, h, pure, Except.pure]

/-- The readers of tags, scripts and control flow leave the text for the others. -/
structure Passed (rs : Readers) (ctx : Context) (t : Text) : Prop where
  handlebars : rs.handlebars ctx t = none
  insideTag : rs.insideTag ctx t = none
  close : Readers.close ctx t = none
  scriptContent : Readers.scriptContent ctx t = .ok none
  controlFlow : rs.controlFlow ctx t = .ok none

theorem Passed.rawContent (h : Passed rs ctx t) (hp : rs.rawContent ctx t = .ok (some p)) :
    rs.piece ctx t = .ok p := by
  obtain ⟨h₁, h₂, h₃, h₄, h₅⟩ := h
  simp [piece, h₁, h₂, h₃, h₄, h₅, hp, pure, Except.pure, bind, Except.bind]

theorem Passed.contentWord (h : Passed rs ctx t) (h₆ : rs.rawContent ctx t = .ok none)
    (hp : rs.contentWord ctx t = some p) : rs.piece ctx t = .ok p := by
  obtain ⟨h₁, h₂, h₃, h₄, h₅⟩ := h
  simp [piece, h₁, h₂, h₃, h₄, h₅, h₆, hp, pure, Except.pure, bind, Except.bind]

theorem Passed.comment (h : Passed rs ctx t) (h₆ : rs.rawContent ctx t = .ok none)
    (h₇ : rs.contentWord ctx t = none) (hp : Readers.comment t = .ok (some p)) :
    rs.piece ctx t = .ok p := by
  obtain ⟨h₁, h₂, h₃, h₄, h₅⟩ := h
  simp [piece, h₁, h₂, h₃, h₄, h₅, h₆, h₇, hp, pure, Except.pure, bind, Except.bind]

theorem Passed.tagOpen (h : Passed rs ctx t) (h₆ : rs.rawContent ctx t = .ok none)
    (h₇ : rs.contentWord ctx t = none) (h₈ : Readers.comment t = .ok none)
    (h₉ : Readers.processing t = none) (hp : rs.tagOpen ctx t = some p) :
    rs.piece ctx t = .ok p := by
  obtain ⟨h₁, h₂, h₃, h₄, h₅⟩ := h
  simp [piece, h₁, h₂, h₃, h₄, h₅, h₆, h₇, h₈, h₉, hp, pure, Except.pure, bind, Except.bind]

theorem handlebars_eq_none (ht : ¬['{', '{'] <+: t) : rs.handlebars ctx t = none := by
  have hprefix : ['{', '{'].isPrefixOf t = false := by
    rw [Bool.eq_false_iff, ne_eq, List.isPrefixOf_iff_prefix]
    exact ht
  simp [handlebars, hprefix]

theorem not_braces_of_not_opensTemplate (h : opensTemplate t = false) : ¬['{', '{'] <+: t := by
  rintro ⟨rest, rfl⟩
  simp [opensTemplate] at h

theorem scriptContent_eq_none
    (h : ∀ n, ctx.contentOf? = some n → n ≠ "script".toList ∧ n ≠ "style".toList) :
    Readers.scriptContent ctx t = .ok none := by
  unfold scriptContent
  split
  · rfl
  · next n hn => exact if_neg (not_or.mpr (h n hn))

/-- Between tags, outside scripts, and where no Handlebars tag starts, there is plain content. -/
theorem passed_between (angular : usesTemplate style .angular = false) (hopened : ctx.opened = [])
    (hname : ∀ n, ctx.contentOf? = some n → n ≠ "script".toList ∧ n ≠ "style".toList)
    (hbraces : ¬['{', '{'] <+: t) : Passed (ofStyle style) ctx t := by
  have hinside : ctx.openStartsWith '<' = false := by simp [Context.openStartsWith, hopened]
  have hopen : ctx.openIs .tagOpen = false := by simp [Context.openIs, hopened]
  refine ⟨handlebars_eq_none hbraces, ?_, ?_, scriptContent_eq_none hname, ?_⟩
  · cases t with
    | nil => rfl
    | cons c t => simp [insideTag, hinside]
  · simp [Readers.close, hopen]
  · simp [Readers.controlFlow, ofStyle, angular]

theorem rawContent_eq_none (hopened : ctx.opened = [])
    (hname : ∀ n, ctx.contentOf? = some n → rs.leavesContent n = false) :
    rs.rawContent ctx t = .ok none := by
  have hopen : ctx.openStartsWith '{' = false := by simp [Context.openStartsWith, hopened]
  unfold rawContent
  rw [hopen]
  simp only [Bool.false_eq_true, if_false]
  split
  · next n hn => simp [hname n hn]
  · rfl

/-! ## Openings of tags -/

theorem contentWord_eq (delimiter : style.unformattedContentDelimiter = [])
    (hopened : ctx.opened = []) :
    (ofStyle style).contentWord ctx t = Piece.ofLength .text ((ofStyle style).word.length t) := by
  have hdelimited : (ofStyle style).delimitedLength t = 0 := by
    unfold delimitedLength
    rw [show (ofStyle style).style = style from rfl, delimiter]
  simp [contentWord, hdelimited, Context.openIs, hopened]

theorem contentWord_angle (delimiter : style.unformattedContentDelimiter = [])
    (hopened : ctx.opened = []) (hfree : opensTemplate ('<' :: t) = false) :
    (ofStyle style).contentWord ctx ('<' :: t) = none := by
  have hlength : (ofStyle style).word.length ([] ++ '<' :: t) = ([] : Text).length :=
    word_append (by simp) (by simpa using hfree) (oneOf_stops (by simp))
  rw [contentWord_eq delimiter hopened]
  rw [List.nil_append] at hlength
  rw [hlength]
  rfl

theorem between_eq_zero {a b : Text} (h : ¬a <+: t) : (Reader.between a b).length t = 0 := by
  by_contra hne
  exact h (Reader.starts_of_between hne)

theorem comment_eq_none (h : ¬['<', '!'] <+: t) : Readers.comment t = .ok none := by
  have hcomment : ¬"<!--".toList <+: t := fun hp => h (List.IsPrefix.trans (by decide) hp)
  have hcdata : ¬"<![CDATA[".toList <+: t := fun hp => h (List.IsPrefix.trans (by decide) hp)
  unfold Readers.comment
  rw [between_eq_zero hcomment, between_eq_zero hcdata]
  rfl

theorem processing_eq_none (h : ¬['<', '!'] <+: t) (hfree : opensTemplate t = false) :
    Readers.processing t = none := by
  have hcond : ¬"<![".toList <+: t := fun hp => h (List.IsPrefix.trans (by decide) hp)
  have hphp : ¬"<?".toList <+: t := by
    rintro ⟨rest, rfl⟩
    simp [opensTemplate] at hfree
  unfold Readers.processing
  rw [between_eq_zero hcond, between_eq_zero hphp]
  rfl

/-- Plain content that starts with an angle bracket and is no comment is the opening of a tag. -/
theorem piece_tagOpen (delimiter : style.unformattedContentDelimiter = [])
    (hopened : ctx.opened = []) (passed : Passed (ofStyle style) ctx ('<' :: t))
    (hraw : (ofStyle style).rawContent ctx ('<' :: t) = .ok none) (hmark : t.head? ≠ some '!')
    (hfree : opensTemplate ('<' :: t) = false)
    (hp : (ofStyle style).tagOpen ctx ('<' :: t) = some p) :
    (ofStyle style).piece ctx ('<' :: t) = .ok p := by
  have hbang : ¬['<', '!'] <+: '<' :: t := by
    rintro ⟨rest, hrest⟩
    obtain ⟨-, rfl⟩ := List.cons.inj hrest
    exact hmark rfl
  exact passed.tagOpen hraw (contentWord_angle delimiter hopened hfree) (comment_eq_none hbang)
    (processing_eq_none hbang hfree) hp

theorem betweenTags_of_opened (hopened : ctx.opened = []) : ctx.betweenTags = true := by
  simp [Context.betweenTags, hopened]

theorem tagOpen_start (hopened : ctx.opened = [])
    (hu : ∀ c ∈ u, c ∉ ['\n', '\r', '\t', ' ', '>', '/']) (hne : u ≠ [])
    (hfree : ∀ v, v <:+ u → opensTemplate (v ++ rest) = false)
    (hrest : (oneOf ['\n', '\r', '\t', ' ', '>', '/']).Stops rest) :
    (ofStyle style).tagOpen ctx ('<' :: (u ++ rest)) =
      some { kind := .tagOpen, length := 1 + u.length } := by
  have hlength : (ofStyle style).elementName.length (u ++ rest) = u.length :=
    elementName_append hu hfree hrest
  cases u with
  | nil => exact absurd rfl hne
  | cons c u =>
      have hc : c ≠ '/' := by
        rintro rfl
        exact hu '/' (List.mem_cons_self ..) (by simp)
      rw [List.cons_append] at hlength ⊢
      rw [Readers.tagOpen]
      · rw [betweenTags_of_opened hopened, hlength]
        rfl
      · intro w hw
        exact hc (List.cons.inj hw).1

theorem tagOpen_end (hopened : ctx.opened = [])
    (hu : ∀ c ∈ u, c ∉ ['\n', '\r', '\t', ' ', '>', '/'])
    (hfree : ∀ v, v <:+ u → opensTemplate (v ++ rest) = false)
    (hrest : (oneOf ['\n', '\r', '\t', ' ', '>', '/']).Stops rest) :
    (ofStyle style).tagOpen ctx ('<' :: '/' :: (u ++ rest)) =
      some { kind := .tagOpen, length := 2 + u.length } := by
  have hlength : (ofStyle style).elementName.length (u ++ rest) = u.length :=
    elementName_append hu hfree hrest
  rw [Readers.tagOpen, betweenTags_of_opened hopened, hlength]
  rfl

end Readers

/-! ## One lexeme after the other -/

/-- The lexeme that a decision is about. -/
def Piece.lexeme (p : Piece) (g text : Text) : Lexeme :=
  { kind := p.kind, text, gap := Gap.ofText {} g, directives := p.directives }

section

variable {rs : Readers} {ctx : Context} {g u rest : Text} {p : Piece}

/-- A decision at the first character behind a gap cuts off a lexeme. -/
theorem lexemesFrom_append (hg : ∀ c ∈ g, isGapChar c = true)
    (hu : ∃ c, u.head? = some c ∧ isGapChar c = false) (hp : rs.piece ctx (u ++ rest) = .ok p)
    (hlength : p.length = u.length) :
    lexemesFrom rs ctx (g ++ (u ++ rest)) =
      (lexemesFrom rs (ctx.advance (p.lexeme g u)) rest).map (p.lexeme g u :: ·) := by
  obtain ⟨c, hhead, hc⟩ := hu
  obtain ⟨v, rfl⟩ := List.head?_eq_some_iff.mp hhead
  have hdrop : (g ++ (c :: v ++ rest)).dropWhile isGapChar = c :: (v ++ rest) :=
    Text.dropWhile_append_cons hg hc _
  have hspan : Gap.span {} (g ++ (c :: v ++ rest)) = g := Text.takeWhile_append_cons hg hc _
  rw [lexemesFrom]
  simp only [hspan]
  split
  · next hd => exact absurd (hdrop.symm.trans hd) (List.cons_ne_nil _ _)
  · next c' w hd =>
      obtain ⟨rfl, rfl⟩ := List.cons.inj (hdrop.symm.trans hd)
      have hlength : p.length - 1 = v.length := by simp [hlength]
      rw [show rs.piece ctx (c :: (v ++ rest)) = .ok p from hp]
      simp only [bind, Except.bind, hlength, List.take_left, List.drop_left]
      unfold Piece.lexeme
      cases lexemesFrom rs (ctx.advance _) rest <;> rfl

theorem lexemesFrom_gap (hg : ∀ c ∈ g, isGapChar c = true) :
    lexemesFrom rs ctx g = .ok [{ kind := .eof, text := [], gap := Gap.ofText {} g }] := by
  have hdrop : g.dropWhile isGapChar = [] := by simpa [List.dropWhile_eq_nil_iff] using hg
  have hspan : Gap.span {} g = g := by
    have := List.takeWhile_append_dropWhile (p := isGapChar) (l := g)
    rwa [hdrop, List.append_nil] at this
  rw [lexemesFrom]
  simp only [hspan]
  split
  · rfl
  · next hd => exact absurd (hdrop.symm.trans hd).symm (List.cons_ne_nil _ _)

end

end Html

end EmbeddedMarkup
