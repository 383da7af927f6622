import EmbeddedMarkup.Proofs.Html.Braces

/-!
# Marks are not torn between lexemes

At each place between two lexemes the text is between tags, in a tag, or in a Handlebars tag
(`Place`). Which it is follows from the lexemes before, and the formatter's memory of the last tag
agrees with it. In the first two cases no mark lies across the place; in the last the formatter
leaves the text as it is. So all tokens of a text can be written without harm to the marks
(`Gentle.allBonded`).

This needs a style in which each lexeme ends where the readers mean it to (`Gentle`). A delimiter
that ends with a brace ends a lexeme before a hash sign, and so can a pattern among the names of
elements whose content is left as it is.
-/

namespace EmbeddedMarkup

open Text (Bonds)

namespace Html

/-- What a style has to satisfy for the marks of placeholders to stay whole. -/
structure Gentle (style : Style.Markup) : Prop where
  templating : style.templating = defaultTemplating
  names : ∀ name : Text, style.unformatted.has name = true ∨
    style.contentUnformatted.has name = true → name.all Readers.isPlainChar = true
  delimiter : ∀ c, style.unformattedContentDelimiter.getLast? = some c → c ≠ '{' ∧ c ≠ '#'
  newlines : 0 ≤ style.maxPreserveNewlines

variable {style : Style.Markup} {ctx : Context} {v : TagView} {o l : Lexeme} {content : Bool}
  {t g rest : Text} {p : Piece}

/-- The only open lexeme is the opening of the last tag. -/
structure Tagged (ctx : Context) (v : TagView) (o : Lexeme) : Prop where
  opened : ctx.opened = [o]
  kind : o.kind = .tagOpen
  opening : v.opening = o.text
  incomplete : v.complete = false

/-- Where the text `t` is: between tags, in a tag, or in a Handlebars tag. Only in the last case can
a mark lie across the place before it. -/
inductive Place (ctx : Context) (v : TagView) (content : Bool) (t : Text) : Prop where
  | between (opened : ctx.opened = []) (unbound : Unbound ctx.previous.text.getLast? t)
  | inTag {o : Lexeme} (tagged : Tagged ctx v o) (starts : o.text.head? = some '<')
      (equals : ctx.previous.kind = .equals → ctx.previous.text.getLast? = some '=')
      (unbound : Unbound ctx.previous.text.getLast? t)
  | inBraces {o : Lexeme} (tagged : Tagged ctx v o) (starts : ['{', '{'] <+: o.text)
      (content : content = false)

theorem Context.previous_advance (ctx : Context) (l : Lexeme) : (ctx.advance l).previous = l := by
  unfold advance
  split
  · rfl
  · split
    · rfl
    · split <;> rfl

theorem Tagged.betweenTags (h : Tagged ctx v o) : ctx.betweenTags = false := by
  simp [Context.betweenTags, h.opened, h.kind]

theorem Tagged.openIs (h : Tagged ctx v o) (k : Kind) : ctx.openIs k = (k == .tagOpen) := by
  cases k <;> simp [Context.openIs, h.opened, h.kind]

theorem Tagged.openStartsWith (h : Tagged ctx v o) (c : Char) :
    ctx.openStartsWith c = (o.text.head? == some c) := by
  simp [Context.openStartsWith, h.opened, Lexeme.startsWith]

theorem Tagged.advance (h : Tagged ctx v o) (hopens : l.opens = false)
    (hcloses : l.closes o = false) :
    Tagged (ctx.advance l) v o := by
  refine ⟨?_, h.kind, h.opening, h.incomplete⟩
  simp [Context.advance, hopens, h.opened, hcloses]

theorem Tagged.opened_advance (h : Tagged ctx v o) (hopens : l.opens = false)
    (hcloses : l.closes o = true) : (ctx.advance l).opened = [] := by
  simp [Context.advance, hopens, h.opened, hcloses]

theorem Context.opened_advance (h : ctx.opened = []) :
    (ctx.advance l).opened = if l.opens then [l] else [] := by
  unfold advance
  split
  · rw [h]
  · rw [h]

theorem Gentle.plain (h : Gentle style) {name : Text}
    (hname : (Readers.ofStyle style).leavesContent name = true) :
    name.all Readers.isPlainChar = true := by
  simp only [Readers.leavesContent, Bool.and_eq_true, Bool.or_eq_true] at hname
  exact h.names name hname.2.symm

namespace Readers

/-- Between tags a lexeme is cut off safely, or it is the opening of a Handlebars tag. -/
theorem Decided.between (gentle : Gentle style) (opened : ctx.opened = [])
    (h : Decided (.ofStyle style) ctx t p) :
    (p.kind = .tagOpen ∧ 2 ≤ p.length ∧ ['{', '{'] <+: t) ∨
      (CutsAt p.length t ∧ p.kind ≠ .controlFlowOpen ∧
        (p.kind = .tagOpen → t.head? = some '<')) := by
  have hstarts : ∀ c, ctx.openStartsWith c = false :=
    fun c => by simp [Context.openStartsWith, opened]
  have hopen : ctx.openIs .controlFlowOpen = false := by simp [Context.openIs, opened]
  cases h with
  | handlebars h =>
      obtain ⟨starts, -, ⟨kind, cuts⟩ | ⟨kind, hle⟩⟩ := handlebars_cases h
      · exact .inr ⟨cuts, by simp [kind], by simp [kind]⟩
      · exact .inl ⟨kind, hle, starts⟩
  | insideTag _ h =>
      have := (insideTag_eq_some h).1
      simp [hstarts] at this
  | close _ _ h =>
      obtain ⟨-, a, -, -, ⟨hopen, -⟩ | ⟨hopen, -⟩⟩ := close_eq_some h <;> simp [hstarts] at hopen
  | scriptContent _ _ _ h =>
      exact .inr
        ⟨cutsAt_scriptContent h, by simp [scriptContent_kind h], by simp [scriptContent_kind h]⟩
  | controlFlow _ _ h =>
      rw [controlFlow_eq_none gentle.templating] at h
      cases h
  | rawContent _ _ _ _ h =>
      have kind := rawContent_kind h
      exact .inr ⟨cutsAt_rawContent (fun _ => gentle.plain) (hstarts '{') h, by simp [kind],
        by simp [kind]⟩
  | contentWord _ _ _ _ _ h =>
      have kind := (ofLength_eq_some h).1
      exact .inr ⟨cutsAt_contentWord gentle.templating gentle.delimiter hopen h, by simp [kind],
        by simp [kind]⟩
  | comment _ _ _ _ h =>
      exact .inr ⟨cutsAt_comment h, by simp [comment_kind h], by simp [comment_kind h]⟩
  | processing _ _ _ _ h =>
      have kind := (ofLength_eq_some h).1
      exact .inr ⟨cutsAt_processing h, by simp [kind], by simp [kind]⟩
  | tagOpen _ _ _ _ h =>
      exact .inr ⟨cutsAt_tagOpen gentle.templating h, by simp [tagOpen_kind h],
        fun _ => head_of_tagOpen h⟩
  | unknown _ _ _ h₆ h =>
      subst h
      exact .inr ⟨cutsAt_unknown gentle.templating hopen h₆, by simp, by simp⟩

theorem insideTag_eq_none {rs : Readers} {c : Char} (hopen : ctx.openStartsWith '<' = true)
    (h : rs.insideTag ctx (c :: t) = none) : c ≠ '=' ∧ rs.attrName.length (c :: t) = 0 := by
  rw [insideTag, hopen] at h
  simp only [Bool.not_true, Bool.false_eq_true, if_false] at h
  split at h
  · cases h
  · next hne =>
      split at h
      · cases h
      · split at h
        · cases h
        · refine ⟨hne, ?_⟩
          cases hn : rs.attrName.length (c :: t) with
          | zero => rfl
          | succ n => simp [Piece.ofLength, hn] at h

theorem close_eq_none_tag (hopen : ctx.openStartsWith '<' = true)
    (hkind : ctx.openIs .tagOpen = true) (h : Readers.close ctx t = none) :
    ¬['>'] <+: t ∧ ¬['/', '>'] <+: t := by
  simp only [← List.isPrefixOf_iff_prefix]
  rw [close, hopen, hkind] at h
  simp only [Bool.not_true, Bool.false_eq_true, if_false, if_true] at h
  split at h
  · cases h
  · split at h
    · cases h
    · exact ⟨‹_›, ‹_›⟩

theorem close_eq_none_braces (htag : ctx.openStartsWith '<' = false)
    (hopen : ctx.openStartsWith '{' = true) (hkind : ctx.openIs .tagOpen = true)
    (h : Readers.close ctx t = none) : ¬['}', '}'] <+: t := by
  rw [← List.isPrefixOf_iff_prefix]
  rw [close, htag, hopen, hkind] at h
  simp only [Bool.not_true, Bool.false_eq_true, if_false, Bool.true_and] at h
  split at h
  · cases h
  · assumption

/-- A tag that is not at its end goes on with an attribute at each place that is not a gap. -/
theorem not_openStartsWith_angle (templating : style.templating = defaultTemplating)
    (head : ∃ c, t.head? = some c ∧ isGapChar c = false) (hkind : ctx.openIs .tagOpen = true)
    (hinside : (Readers.ofStyle style).insideTag ctx t = none)
    (hclose : Readers.close ctx t = none) :
    ctx.openStartsWith '<' = false := by
  by_contra hopen
  rw [Bool.not_eq_false] at hopen
  obtain ⟨c, hc, hgap⟩ := head
  obtain ⟨t, rfl⟩ : ∃ u, t = c :: u := by
    cases t with
    | nil => cases hc
    | cons d u => exact ⟨u, by rw [Option.some.inj hc]⟩
  obtain ⟨hne, hzero⟩ := insideTag_eq_none hopen hinside
  obtain ⟨hangle, hslash⟩ := close_eq_none_tag hopen hkind hclose
  have hstops := (default_attrName templating).stops_or_braces (c :: t)
  rw [hzero, List.drop_zero] at hstops
  rcases hstops with hstops | ⟨hexcluded, -⟩
  · rcases hstops.of_orElse with hstop | hend | hliteral
    · have hmem := mem_of_stops_oneOf hstop
      simp only [List.mem_cons, List.not_mem_nil, or_false] at hmem
      rcases hmem with rfl | rfl | rfl | rfl | rfl | rfl
      · cases hgap
      · cases hgap
      · cases hgap
      · cases hgap
      · exact hne rfl
      · exact hangle (by simp)
    · cases hend
    · obtain ⟨n, hn⟩ := Option.isSome_iff_exists.mp hliteral
      exact hslash (Recognizer.literal_eq_some hn).1
  · cases hexcluded

/-- A Handlebars tag that is not at its end goes on with text. -/
theorem not_openStartsWith_brace {rs : Readers} (ht : t ≠ []) (hkind : ctx.openIs .tagOpen = true)
    (htag : ctx.openStartsWith '<' = false) (hraw : rs.rawContent ctx t = .ok none)
    (hclose : Readers.close ctx t = none) : ctx.openStartsWith '{' = false := by
  by_contra hbrace
  rw [Bool.not_eq_false] at hbrace
  have hend := close_eq_none_braces htag hbrace hkind hclose
  have hzero : (Reader.upTo {} (.literal ['}', '}'])).length t = 0 := by
    rw [Readers.rawContent, hbrace, if_pos rfl] at hraw
    cases hn : (Reader.upTo {} (.literal ['}', '}'])).length t with
    | zero => rfl
    | succ n => simp [Piece.ofLength, hn] at hraw
  have hstops := Reader.stops_upTo (.literal ['}', '}']) t
  rw [hzero, List.drop_zero] at hstops
  rcases hstops with h | h
  · exact ht h
  · obtain ⟨n, hn⟩ := Option.isSome_iff_exists.mp h
    exact hend (Recognizer.literal_eq_some hn).1

/-- In a tag there is an attribute or the end of the tag at each place that is not a gap. -/
theorem Decided.inTag (gentle : Gentle style) (tagged : Tagged ctx v o)
    (starts : o.text.head? = some '<') (head : ∃ c, t.head? = some c ∧ isGapChar c = false)
    (h : Decided (.ofStyle style) ctx t p) :
    CutsAt p.length t ∧
      ((Readers.ofStyle style).insideTag ctx t = some p ∨ Readers.close ctx t = some p) := by
  have hopen : ctx.openStartsWith '<' = true := by simp [tagged.openStartsWith, starts]
  have some_of : (Readers.ofStyle style).insideTag ctx t = none →
      Readers.close ctx t = none → False := by
    intro hinside hclose
    have := not_openStartsWith_angle gentle.templating head (by simp [tagged.openIs]) hinside hclose
    simp [hopen] at this
  cases h with
  | handlebars h =>
      have := (handlebars_cases h).2.1
      simp [tagged.betweenTags] at this
  | insideTag _ h => exact ⟨cutsAt_insideTag gentle.templating h, .inl h⟩
  | close _ _ h => exact ⟨cutsAt_close h, .inr h⟩
  | scriptContent _ h₂ h₃ | rawContent _ h₂ h₃
      | contentWord _ h₂ h₃ | comment h₂ h₃ | processing h₂ h₃
  | tagOpen h₂ h₃ | unknown h₂ h₃ => exact (some_of h₂ h₃).elim
  | controlFlow _ _ h =>
      rw [controlFlow_eq_none gentle.templating] at h
      cases h

/-- In a Handlebars tag there is text up to its end. -/
theorem Decided.inBraces (gentle : Gentle style) (tagged : Tagged ctx v o)
    (starts : ['{', '{'] <+: o.text) (ht : t ≠ []) (h : Decided (.ofStyle style) ctx t p) :
    p.kind = .text ∨ Readers.close ctx t = some p := by
  obtain ⟨text, htext⟩ := starts
  have hbrace : ctx.openStartsWith '{' = true := by simp [tagged.openStartsWith, ← htext]
  have htag : ctx.openStartsWith '<' = false := by simp [tagged.openStartsWith, ← htext]
  have some_of : (Readers.ofStyle style).rawContent ctx t = .ok none → Readers.close ctx t = none →
      False := by
    intro hraw hclose
    have := not_openStartsWith_brace ht (by simp [tagged.openIs]) htag hraw hclose
    simp [hbrace] at this
  cases h with
  | handlebars h =>
      have := (handlebars_cases h).2.1
      simp [tagged.betweenTags] at this
  | insideTag _ h =>
      have := (insideTag_eq_some h).1
      simp [htag] at this
  | close _ _ h => exact .inr h
  | scriptContent _ _ _ h => exact .inl (scriptContent_kind h)
  | controlFlow _ _ h =>
      rw [controlFlow_eq_none gentle.templating] at h
      cases h
  | rawContent _ _ _ _ h => exact .inl (rawContent_kind h)
  | contentWord _ _ _ _ _ h => exact .inl (ofLength_eq_some h).1
  | comment _ h₃ h₅ | processing _ h₃ h₅ | tagOpen _ h₃ h₅ | unknown _ h₃ h₅ =>
      exact (some_of h₅ h₃).elim

theorem head_of_between {a b : Text} (ha : a.head? = some '<')
    (h : (Reader.between a b).length t ≠ 0) : t.head? = some '<' := by
  obtain ⟨rest, rfl⟩ := Reader.starts_of_between h
  cases a with
  | nil => cases ha
  | cons c a => exact ha

theorem head_of_comment (h : Readers.comment t = .ok (some p)) : t.head? = some '<' := by
  obtain ⟨-, a, b, n, more, ha, -, rfl, hne, -⟩ := comment_eq_some h
  exact head_of_between ha hne

theorem head_of_processing (h : Readers.processing t = some p) : t.head? = some '<' := by
  obtain ⟨-, hne, a, b, ha, -, hlength⟩ := processing_eq_some h
  exact head_of_between ha (hlength ▸ hne)

/-- The sorts of lexemes: what opens a tag or is a comment, a part of a tag, the end of a tag, and
text. The first begin with an angle bracket or with a brace. -/
theorem Decided.sorts (templating : style.templating = defaultTemplating)
    (h : Decided (.ofStyle style) ctx t p) :
    ((p.kind = .tagOpen ∨ p.kind = .comment) ∧ (t.head? = some '<' ∨ t.head? = some '{')) ∨
      (Readers.ofStyle style).insideTag ctx t = some p ∨ Readers.close ctx t = some p ∨
      p.kind = .text ∨ p.kind = .unknown := by
  cases h with
  | handlebars h =>
      obtain ⟨⟨rest, rfl⟩, -⟩ := handlebars_cases h
      exact .inl ⟨(handlebars_kind h).symm, .inr rfl⟩
  | insideTag _ h => exact .inr (.inl h)
  | close _ _ h => exact .inr (.inr (.inl h))
  | scriptContent _ _ _ h => exact .inr (.inr (.inr (.inl (scriptContent_kind h))))
  | controlFlow _ _ h =>
      rw [controlFlow_eq_none templating] at h
      cases h
  | rawContent _ _ _ _ h => exact .inr (.inr (.inr (.inl (rawContent_kind h))))
  | contentWord _ _ _ _ _ h => exact .inr (.inr (.inr (.inl (ofLength_eq_some h).1)))
  | comment _ _ _ _ h => exact .inl ⟨.inr (comment_kind h), .inl (head_of_comment h)⟩
  | processing _ _ _ _ h => exact .inl ⟨.inr (ofLength_eq_some h).1, .inl (head_of_processing h)⟩
  | tagOpen _ _ _ _ h => exact .inl ⟨.inl (tagOpen_kind h), .inl (head_of_tagOpen h)⟩
  | unknown _ _ _ _ h => exact .inr (.inr (.inr (.inr (by rw [h]))))

theorem insideTag_equals {rs : Readers} (h : rs.insideTag ctx t = some p)
    (kind : p.kind = .equals) :
    ['='] <+: t ∧ p.length = 1 := by
  obtain ⟨-, c, u, rfl, ⟨rfl, rfl⟩ | ⟨-, rfl⟩ | ⟨-, rfl⟩ | ⟨hkind, -⟩⟩ := insideTag_eq_some h
  · exact ⟨by simp, rfl⟩
  · cases kind
  · cases kind
  · simp [kind] at hkind

end Readers

namespace IsNext

variable (h : IsNext (.ofStyle style) ctx g l rest p)
include h

theorem head_append (d : Char) :
    l.text.head? = some d ↔ (l.text ++ rest).head? = some d := by
  obtain ⟨c, hc, -⟩ := h.head
  cases hl : l.text with
  | nil => simp [hl] at hc
  | cons e text => simp

theorem append_ne_nil : l.text ++ rest ≠ [] := by
  obtain ⟨c, hc, -⟩ := h.head
  intro hnil
  simp [(List.append_eq_nil_iff.mp hnil).1] at hc

theorem text_eq (hne : p.length ≠ 0) :
    (l.text ++ rest).take p.length = l.text ∧ (l.text ++ rest).drop p.length = rest := by
  have htake : (l.text ++ rest).take p.length = l.text := by
    have := h.text
    rw [Nat.sub_add_cancel (Nat.pos_of_ne_zero hne)] at this
    exact this.symm
  refine ⟨htake, ?_⟩
  have hsplit := List.take_append_drop p.length (l.text ++ rest)
  rw [htake] at hsplit
  exact List.append_cancel_left hsplit

theorem text_of_starts {a : Text} (ha : a <+: l.text ++ rest)
    (hlength : p.length = a.length) (hne : a ≠ []) : l.text = a := by
  have := (h.text_eq (by simpa [hlength] using hne)).1
  rw [hlength, ← List.prefix_iff_eq_take.mp ha] at this
  exact this.symm

theorem unbound (cuts : CutsAt p.length (l.text ++ rest)) :
    Unbound l.text.getLast? rest := by
  obtain ⟨htake, hdrop⟩ := h.text_eq cuts.ne_zero
  simpa only [htake, hdrop] using cuts.unbound

/-- A lexeme is not bound to what comes before it if no mark lies there. -/
theorem not_fused {q : Option Char}
    (unbound : Unbound q (g ++ (l.text ++ rest))) : ¬Fused Bonds.marks q l := by
  rintro ⟨c, d, hq, hd, hkeeps, hgap⟩
  rw [h.gap, Gap.ofText_isPresent] at hgap
  obtain rfl : g = [] := by simpa using hgap
  exact unbound c d hq ((h.head_append d).mp hd) hkeeps

theorem text_of_close
    (hclose : Readers.close ctx (l.text ++ rest) = some p) :
    (ctx.openStartsWith '<' = true ∧ (l.text = ['>'] ∨ l.text = ['/', '>'])) ∨
      (ctx.openStartsWith '{' = true ∧ l.text = ['}', '}']) := by
  obtain ⟨-, a, ha, hlength, ⟨hopen, rfl | rfl⟩ | ⟨hopen, rfl⟩⟩ := Readers.close_eq_some hclose
  · exact .inl ⟨hopen, .inl (h.text_of_starts ha hlength (by simp))⟩
  · exact .inl ⟨hopen, .inr (h.text_of_starts ha hlength (by simp))⟩
  · exact .inr ⟨hopen, h.text_of_starts ha hlength (by simp)⟩

end IsNext

theorem Tagged.head_of_braces (tagged : Tagged ctx v o) (starts : ['{', '{'] <+: o.text) :
    v.opening.head? = some '{' ∧ ctx.openStartsWith '<' = false ∧
      ctx.openStartsWith '{' = true := by
  obtain ⟨text, htext⟩ := starts
  have hhead : o.text.head? = some '{' := by rw [← htext]; rfl
  exact ⟨by rw [tagged.opening, hhead], by simp [tagged.openStartsWith, hhead],
    by simp [tagged.openStartsWith, hhead]⟩

namespace Place

variable {token : Token}

/-- In a tag, an equals sign ends the text before a value. -/
theorem last_of_equals (place : Place ctx v content t) (hopen : ctx.openStartsWith '<' = true)
    (hequals : ctx.previous.kind = .equals) : ctx.previous.text.getLast? = some '=' := by
  cases place with
  | between opened _ => simp [Context.openStartsWith, opened] at hopen
  | inTag _ _ equals _ => exact equals hequals
  | inBraces tagged starts _ => simp [(tagged.head_of_braces starts).2.1] at hopen

theorem bonded_of_text_eq_nil {β : Bonds} {before : Kind} {q : Option Char} (h : token.text = []) :
    Bonded β style v before q content token where
  fused := by
    rintro - ⟨c, d, -, hd, -⟩
    simp [h] at hd
  parted := by
    rintro - ⟨c, d, -, hd, -⟩
    simp [h] at hd
  opening _ d hd := by simp [h] at hd
  ending _ c hc := by simp [h] at hc

/-- A token that is neither an opening nor an end leaves what is remembered of the last tag. -/
theorem next_eq (following : List Token) (h : token.kind ≠ .tagOpen) (h' : token.kind ≠ .comment)
    (h'' : token.kind ≠ .tagClose) : v.next style token following = v := by
  unfold TagView.next
  split
  · next k => exact absurd k h
  · next k => exact absurd k h'
  · next k => exact absurd k h''
  · rfl

theorem tagged_of_tagOpen (opened : ctx.opened = []) (kind : token.kind = .tagOpen)
    (following : List Token) :
    Tagged (ctx.advance token.toLexeme) (v.next style token following) token.toLexeme := by
  have hopened := Context.opened_advance (l := token.toLexeme) opened
  rw [if_pos (by simp [Lexeme.opens, kind])] at hopened
  exact ⟨hopened, kind, by simp [TagView.next, kind], by simp [TagView.next, kind]⟩

section

variable (h : IsNext (.ofStyle style) ctx g token.toLexeme rest p) (gentle : Gentle style)
include h gentle

theorem fused (place : Place ctx v content (g ++ (token.text ++ rest)))
    (hset : content = true ∨ token.kind = .attrName ∨
      (token.kind = .tagClose ∧ v.opening.head? = some '<') ∨ v.embeds token = true) :
    ¬Fused Bonds.marks ctx.previous.text.getLast? token.toLexeme := by
  cases place with
  | between _ unbound => exact h.not_fused unbound
  | inTag _ _ _ unbound => exact h.not_fused unbound
  | inBraces tagged starts hcontent =>
      obtain ⟨hopening, hangle, -⟩ := tagged.head_of_braces starts
      rcases hset with hc | hattr | ⟨-, hangle'⟩ | hembeds
      · simp [hcontent] at hc
      · have hp : p.kind = .attrName := h.kind.symm.trans hattr
        rcases h.decided.inBraces gentle tagged starts h.append_ne_nil with hkind | hclose
        · simp [hp] at hkind
        · have := hp.symm.trans (Readers.close_kind hclose)
          cases this
      · simp [hopening] at hangle'
      · simp [TagView.embeds, tagged.incomplete] at hembeds

theorem parted (place : Place ctx v content (g ++ (token.text ++ rest)))
    (hset : token.kind = .tagOpen ∨ token.kind = .comment ∨ token.kind = .equals ∨
      token.kind = .controlFlowClose ∨ (token.kind = .value ∧ ctx.previous.kind = .equals) ∨
      (token.kind = .tagClose ∧ v.opening.head? = some '<') ∨ style.maxPreserveNewlines < 0) :
    ¬Parted Bonds.marks ctx.previous.text.getLast? token.toLexeme := by
  rintro ⟨c, d, hq, hd, ⟨rfl, rfl⟩, -⟩
  have hhead := (h.head_append '#').mp hd
  have hnewlines : ¬style.maxPreserveNewlines < 0 := Int.not_lt.mpr gentle.newlines
  have hkind : token.kind = p.kind := h.kind
  rcases h.decided.sorts gentle.templating with ⟨-, hopening⟩ | hinside | hclose | hother
  · simp [hhead] at hopening
  · rcases Readers.insideTag_kind hinside with k | k | k
    · obtain ⟨hequals, -⟩ := Readers.insideTag_equals hinside k
      obtain ⟨u, hu⟩ := hequals
      simp [← hu] at hhead
    · have hequals : ctx.previous.kind = .equals := by simpa [hkind, k, hnewlines] using hset
      rw [place.last_of_equals (Readers.insideTag_eq_some hinside).1 hequals] at hq
      cases hq
    · simp [hkind, k, hnewlines] at hset
  · rcases h.text_of_close hclose with ⟨-, ht | ht⟩ | ⟨-, ht⟩ <;> simp [ht] at hd
  · rcases hother with k | k <;> simp [hkind, k, hnewlines] at hset

/-- A token can be written without harm to the marks wherever it is. -/
theorem bonded (place : Place ctx v content (g ++ (token.text ++ rest))) :
    Bonded Bonds.marks style v ctx.previous.kind ctx.previous.text.getLast? content token where
  fused := place.fused h gentle
  parted := place.parted h gentle
  opening hset d hd c := by
    have hhead := (h.head_append d).mp hd
    have hkind : token.kind = p.kind := h.kind
    rcases h.decided.sorts gentle.templating with ⟨-, hopening⟩ | hinside | hclose | hother
    · rw [hhead] at hopening
      rcases hopening with hd | hd <;> (obtain rfl := Option.some.inj hd; simp [Bonds.marks])
    · rcases Readers.insideTag_kind hinside with k | k | k <;> simp [hkind, k] at hset
    · simp [hkind, Readers.close_kind hclose] at hset
    · rcases hother with k | k <;> simp [hkind, k] at hset
  ending hset c hc d := by
    have hkind : p.kind = .tagClose := h.kind.symm.trans hset
    rcases h.decided.sorts gentle.templating with ⟨k, -⟩ | hinside | hclose | k
    · simp [hkind] at k
    · rcases Readers.insideTag_kind hinside with k | k | k <;> simp [hkind] at k
    · rcases h.text_of_close hclose with ⟨-, ht | ht⟩ | ⟨-, ht⟩ <;> rw [ht] at hc <;>
        (obtain rfl := Option.some.inj hc; simp [Bonds.marks])
    · simp [hkind] at k

theorem next_between (opened : ctx.opened = []) (following : List Token) :
    Place (ctx.advance token.toLexeme) (v.next style token following) (v.embeds token) rest := by
  have hprevious := ctx.previous_advance token.toLexeme
  have hkind : token.kind = p.kind := h.kind
  rcases h.decided.between gentle opened with ⟨kind, hle, starts⟩ | ⟨cuts, hflow, hangle⟩
  · refine .inBraces (tagged_of_tagOpen opened (hkind.trans kind) following) ?_ ?_
    · rw [← (h.text_eq (by omega)).1, List.prefix_take_iff]
      exact ⟨starts, hle⟩
    · simp [TagView.embeds, hkind, kind]
  · have unbound := h.unbound cuts
    by_cases kind : p.kind = .tagOpen
    · refine .inTag (tagged_of_tagOpen opened (hkind.trans kind) following) ?_ ?_
        (by rwa [hprevious])
      · exact (h.head_append '<').mpr (hangle kind)
      · simp [hprevious, hkind, kind]
    · have hopens : token.toLexeme.opens = false := by simp [Lexeme.opens, hkind, kind, hflow]
      exact .between (by simp [Context.opened_advance opened, hopens]) (by rwa [hprevious])

theorem next_inTag (tagged : Tagged ctx v o) (starts : o.text.head? = some '<')
    (following : List Token) :
    Place (ctx.advance token.toLexeme) (v.next style token following) (v.embeds token) rest := by
  have hprevious := ctx.previous_advance token.toLexeme
  have hkind : token.kind = p.kind := h.kind
  have hhead : ∃ c, (token.text ++ rest).head? = some c ∧ isGapChar c = false := by
    obtain ⟨c, hc, hgap⟩ := h.head
    exact ⟨c, (h.head_append c).mp hc, hgap⟩
  obtain ⟨cuts, hinside | hclose⟩ := h.decided.inTag gentle tagged starts hhead
  · have unbound := h.unbound cuts
    have kind := Readers.insideTag_kind hinside
    have hopens : token.toLexeme.opens = false := by
      rcases kind with k | k | k <;> simp [Lexeme.opens, hkind, k]
    have hcloses : token.toLexeme.closes o = false := by
      rcases kind with k | k | k <;> simp [Lexeme.closes, hkind, k]
    have hnext : v.next style token following = v := by
      refine next_eq following ?_ ?_ ?_ <;> rcases kind with k | k | k <;> simp [hkind, k]
    rw [hnext]
    refine .inTag (tagged.advance hopens hcloses) starts ?_ (by rwa [hprevious])
    rw [hprevious]
    intro hequals
    obtain ⟨ha, hlength⟩ := Readers.insideTag_equals hinside (hkind.symm.trans hequals)
    rw [h.text_of_starts ha hlength (by simp)]
    rfl
  · have htext : token.text = ['>'] ∨ token.text = ['/', '>'] := by
      rcases h.text_of_close hclose with ⟨-, ht⟩ | ⟨hopen, -⟩
      · exact ht
      · simp [tagged.openStartsWith, starts] at hopen
    have kind : token.kind = .tagClose := hkind.trans (Readers.close_kind hclose)
    have hcloses : token.toLexeme.closes o = true := by
      rcases htext with ht | ht <;> simp [Lexeme.closes, kind, ht, Lexeme.startsWith, starts]
    refine .between (tagged.opened_advance (by simp [Lexeme.opens, kind]) hcloses) ?_
    rw [hprevious]
    exact h.unbound cuts

theorem next_inBraces (tagged : Tagged ctx v o) (starts : ['{', '{'] <+: o.text)
    (following : List Token) :
    Place (ctx.advance token.toLexeme) (v.next style token following) (v.embeds token) rest := by
  have hprevious := ctx.previous_advance token.toLexeme
  have hkind : token.kind = p.kind := h.kind
  rcases h.decided.inBraces gentle tagged starts h.append_ne_nil with kind | hclose
  · have kind : token.kind = .text := hkind.trans kind
    rw [next_eq following (by simp [kind]) (by simp [kind]) (by simp [kind])]
    refine .inBraces (tagged.advance (by simp [Lexeme.opens, kind]) (by simp [Lexeme.closes, kind]))
      starts ?_
    simp [TagView.embeds, tagged.incomplete]
  · have htext : token.text = ['}', '}'] := by
      rcases h.text_of_close hclose with ⟨hopen, -⟩ | ⟨-, ht⟩
      · simp [(tagged.head_of_braces starts).2.1] at hopen
      · exact ht
    have kind : token.kind = .tagClose := hkind.trans (Readers.close_kind hclose)
    have hcloses : token.toLexeme.closes o = true := by
      simp [Lexeme.closes, kind, htext, List.isPrefixOf_iff_prefix, starts]
    refine .between (tagged.opened_advance (by simp [Lexeme.opens, kind]) hcloses) ?_
    rw [hprevious]
    exact h.unbound (Readers.cutsAt_close hclose)

theorem next (place : Place ctx v content (g ++ (token.text ++ rest))) (following : List Token) :
    Place (ctx.advance token.toLexeme) (v.next style token following) (v.embeds token) rest := by
  cases place with
  | between opened _ => exact next_between h gentle opened following
  | inTag tagged starts _ _ => exact next_inTag h gentle tagged starts following
  | inBraces tagged starts _ => exact next_inBraces h gentle tagged starts following

end

/-- All tokens of a text can be written without harm to the marks. The induction is on the lexemes;
`Place` is what one of them leaves to the next. -/
theorem allBonded (gentle : Gentle style) {ts : List Token}
    (lexed : Lexed (.ofStyle style) ctx t (ts.map Token.toLexeme)) (place : Place ctx v content t) :
    AllBonded Bonds.marks style v ctx.previous.kind ctx.previous.text.getLast? content ts := by
  induction ts generalizing ctx v content t with
  | nil => trivial
  | cons token ts ih =>
      generalize hls : (token :: ts).map Token.toLexeme = ls at lexed
      cases lexed with
      | done hg =>
          obtain ⟨hlexeme, hts⟩ := List.cons.inj hls
          obtain rfl : ts = [] := by simpa using hts
          exact ⟨bonded_of_text_eq_nil (congrArg Lexeme.text hlexeme), trivial⟩
      | @step _ g rest l p ls next more =>
          obtain ⟨rfl, rfl⟩ := List.cons.inj hls
          refine ⟨place.bonded next gentle, ?_⟩
          have := ih more (place.next next gentle ts)
          rwa [ctx.previous_advance] at this

end Place

theorem Gentle.allBonded (gentle : Gentle style) {ts : List Token}
    (h : Token.ofText (.ofStyle style) t = .ok ts) :
    AllBonded Bonds.marks style {} .start none false ts :=
  Place.allBonded gentle (Token.ofText_eq_ok h)
    (.between rfl (unbound_of_ne (by simp) _))

end Html

end EmbeddedMarkup
