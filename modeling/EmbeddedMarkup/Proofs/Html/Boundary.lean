import EmbeddedMarkup.Html.Lexeme
import EmbeddedMarkup.Proofs.Text.Reading

/-!
# Where words and names stop

Words, attributes and element names run on through the placeholders of template languages. With the
template languages of markup by default, each place that could start a placeholder does start one.
So such a piece stops at its own stop or at the end of the text; where the blocks of Handlebars are
left for others, it can also stop before two braces (`TemplateReader.stops_or_braces`).
-/

namespace EmbeddedMarkup.Html

/-- The template languages that markup has by default. -/
def defaultTemplating : List Text := Text.lits ["django", "erb", "handlebars", "php"]

namespace TemplateReader

open Recognizer (Stops)

variable {p : TemplateReader} {r : Recognizer} {t u : Text}

theorem stops_placeholdersLength (hbody : p.body = none) (h : p.boundary.Stops t) :
    p.boundary.Stops (t.drop (p.placeholdersLength t)) ∧
      p.placeholderLength (t.drop (p.placeholdersLength t)) = 0 := by
  fun_induction placeholdersLength p t with
  | case1 => exact ⟨h, rfl⟩
  | case2 c t hzero => exact ⟨h, hzero⟩
  | case3 c t n hn m ih =>
      have hplain : p.boundary.Stops (t.drop m) := by
        have := Reader.stops_stopLength p.boundary (t.drop n)
        rw [List.drop_drop] at this
        simpa only [m, plainLength, hbody] using this
      rw [Nat.add_right_comm, List.drop_succ_cons, ← List.drop_drop]
      exact ih hplain

/-- Between the placeholders plain text runs up to the boundary, so that is where the piece ends. -/
theorem stops_length (hopening : p.opening = none) (hbody : p.body = none)
    (hinclusive : p.inclusive = false) (t : Text) :
    p.boundary.Stops (t.drop (p.length t)) ∧ p.placeholderLength (t.drop (p.length t)) = 0 := by
  have hfirst := Reader.stops_stopLength p.boundary t
  have := stops_placeholdersLength hbody hfirst
  rw [List.drop_drop] at this
  simpa only [length, hbody, hopening, hinclusive, Reader.partLength, Bool.false_eq_true,
    if_false] using this

theorem firstLength_eq_zero {rs : List Reader} (h : firstLength rs t = 0) :
    ∀ r ∈ rs, r.length t = 0 := by
  induction rs with
  | nil => simp
  | cons r rs ih =>
      unfold firstLength at h
      split at h
      · next hr => exact List.forall_mem_cons.mpr ⟨hr, ih h⟩
      · next hr => exact absurd h hr

theorem placeholderLength_ne_zero {start stop : Recognizer} {c : Char} {n : Nat}
    (hmem : (Reader.startingWith {} start).through stop ∈ p.placeholders c)
    (hstart : start (c :: t) = some n) (hn : n ≠ 0) : p.placeholderLength (c :: t) ≠ 0 := by
  intro hzero
  have := firstLength_eq_zero hzero _ hmem
  simp [Reader.length, Reader.startingWith, Reader.through, Reader.partLength, Reader.stopLength,
    Recognizer.atText, hstart, hn] at this

/-- The reader looks for the template languages of markup by default, and leaves at most the blocks
of Handlebars for others. -/
structure Default (p : TemplateReader) (r : Recognizer) : Prop where
  opening : p.opening = none
  body : p.body = none
  stop : p.stop = some r
  inclusive : p.inclusive = false
  disabled : p.disabled = [.angular, .smarty]
  excluded : p.excluded = [] ∨ p.excluded = [.handlebars]

theorem Default.boundary_eq (h : p.Default r) :
    p.boundary = .firstOf [.literal ['{', '%'], .literal ['{', '{'], .literal ['{', '#'],
      Template.erbStart, .literal ['{', '{'], Template.phpStart, r] := by
  have huses : p.uses = fun l => !([.angular, .smarty] : List Template).contains l := by
    funext l
    simp [uses, h.disabled]
  have hfilter : Template.all.filter p.uses = [.django, .erb, .handlebars, .php] := by
    rw [huses]
    rfl
  simp [boundary, hfilter, h.stop, Template.starts]

theorem Default.scripts_mem (h : p.Default r) {q : Reader}
    (hq : q ∈ Template.phpReaders ++ Template.erbReaders) : q ∈ p.placeholders '<' := by
  rcases h.excluded with he | he <;>
    simpa [placeholders, reads, uses, h.disabled, he] using List.mem_append.mp hq

theorem Default.djangoTags_mem (h : p.Default r) {q : Reader} (hq : q ∈ Template.djangoTagReaders) :
    q ∈ p.placeholders '{' := by
  rcases h.excluded with he | he <;> simp [placeholders, reads, uses, h.disabled, he, hq]

theorem Default.braces_mem (h : p.Default r) (he : p.excluded = []) :
    Reader.between ['{', '{'] ['}', '}'] ∈ p.placeholders '{' := by
  simp [placeholders, reads, uses, h.disabled, he, Template.djangoValueReaders]

theorem literal_start {c : Char} {a b : Text} {n : Nat}
    (hmem : Reader.between (c :: a) b ∈ p.placeholders c)
    (hn : Recognizer.literal (c :: a) u = some n) :
    p.placeholderLength u ≠ 0 := by
  obtain ⟨⟨t, rfl⟩, rfl⟩ := Recognizer.literal_eq_some hn
  exact placeholderLength_ne_zero hmem hn (by simp)

theorem andThen_start {c : Char} {a : Text} {start stop : Recognizer} {n : Nat}
    (hmem : (Reader.startingWith {} ((Recognizer.literal (c :: a)).andThen start)).through stop ∈
      p.placeholders c)
    (hn : (Recognizer.literal (c :: a)).andThen start u = some n) : p.placeholderLength u ≠ 0 := by
  obtain ⟨m, hm, hrest⟩ := Option.bind_eq_some_iff.mp hn
  obtain ⟨⟨t, rfl⟩, rfl⟩ := Recognizer.literal_eq_some hm
  obtain ⟨k, -, rfl⟩ := Option.map_eq_some_iff.mp hrest
  exact placeholderLength_ne_zero hmem hn (by simp)

/-- Whatever starts a placeholder is read, apart from blocks that are left for others. -/
theorem Default.stops_or_braces (h : p.Default r) (t : Text) :
    r.Stops (t.drop (p.length t)) ∨
      (p.excluded = [.handlebars] ∧ ['{', '{'] <+: t.drop (p.length t)) := by
  obtain ⟨hstops, hzero⟩ := stops_length h.opening h.body h.inclusive t
  generalize t.drop (p.length t) = u at hstops hzero
  rcases hstops with rfl | hsome
  · exact .inl (.inl rfl)
  · have braces : ∀ n, Recognizer.literal ['{', '{'] u = some n →
        p.excluded = [.handlebars] ∧ ['{', '{'] <+: u := by
      intro n hn
      rcases h.excluded with he | he
      · exact absurd hzero (literal_start (h.braces_mem he) hn)
      · exact ⟨he, (Recognizer.literal_eq_some hn).1⟩
    have tag : Reader.between ['{', '%'] ['%', '}'] ∈ p.placeholders '{' :=
      h.djangoTags_mem (List.mem_cons_of_mem _ (List.mem_cons_self ..))
    have comment : Reader.between ['{', '#'] ['#', '}'] ∈ p.placeholders '{' :=
      h.djangoTags_mem (List.mem_cons_self ..)
    have php := h.scripts_mem (List.mem_append_left _ (List.mem_singleton_self _))
    have erb := h.scripts_mem (List.mem_append_right _ (List.mem_singleton_self _))
    rw [h.boundary_eq] at hsome
    obtain ⟨s, hs, hmatch⟩ := Recognizer.firstOf_isSome hsome
    obtain ⟨n, hn⟩ := Option.isSome_iff_exists.mp hmatch
    simp only [List.mem_cons, List.not_mem_nil, or_false] at hs
    rcases hs with rfl | rfl | rfl | rfl | rfl | rfl | rfl
    · exact absurd hzero (literal_start tag hn)
    · exact .inr (braces n hn)
    · exact absurd hzero (literal_start comment hn)
    · exact absurd hzero (andThen_start erb hn)
    · exact .inr (braces n hn)
    · exact absurd hzero (andThen_start php hn)
    · exact .inl (.inr hmatch)

end TemplateReader

namespace Readers

variable {style : Style.Markup}

theorem templates_eq (h : style.templating = defaultTemplating) :
    templates style = { disabled := [.angular, .smarty] } := by
  unfold templates usesTemplate
  rw [h]
  rfl

theorem default_attrName (h : style.templating = defaultTemplating) :
    (ofStyle style).attrName.Default
      ((oneOf ['\n', '\r', '\t', ' ', '=', '>']).orElse (.literal ['/', '>'])) := by
  simp only [ofStyle, templates_eq h]
  exact ⟨rfl, rfl, rfl, rfl, rfl, .inl rfl⟩

theorem default_elementName (h : style.templating = defaultTemplating) :
    (ofStyle style).elementName.Default (oneOf ['\n', '\r', '\t', ' ', '>', '/']) := by
  simp only [ofStyle, templates_eq h]
  exact ⟨rfl, rfl, rfl, rfl, rfl, .inl rfl⟩

theorem default_word (h : style.templating = defaultTemplating) :
    (ofStyle style).word.Default (oneOf ['\n', '\r', '\t', ' ', '<']) := by
  simp only [ofStyle, templates_eq h]
  split
  · exact ⟨rfl, rfl, rfl, rfl, rfl, .inr rfl⟩
  · exact ⟨rfl, rfl, rfl, rfl, rfl, .inl rfl⟩

end Readers

end EmbeddedMarkup.Html
