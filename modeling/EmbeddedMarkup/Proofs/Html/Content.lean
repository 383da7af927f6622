import EmbeddedMarkup.Html.Format
import EmbeddedMarkup.Proofs.Html.Finished
import EmbeddedMarkup.Proofs.Text.LineEnds
import Mathlib.Data.List.TakeWhile

/-!
# Content that is formatted on its own

The content of a script or a style sheet is taken apart, formatted and put together again. Each step
changes blanks only: a last empty line is dropped (`dropLastBlank_eq`), a wrapping in a comment is
told apart from what it wraps (`unwrap?_eq_some`), lines are moved (`reindent_respaced`), and markup
in markup goes through a formatter of which the same is known (`Setup.Faithful`).

Wherever a line end is put between two characters, neither of them may be bound to the other. The
bonds that are of interest are *mild*: they join nothing but braces and hash signs.
-/

namespace EmbeddedMarkup

open Text (Blanks Bonds Respaced)

/-- Only a brace or a hash sign can be bound to a character after it, and only to the like. -/
def Text.Bonds.Mild (β : Bonds) : Prop :=
  ∀ c d, β.keeps c d → (c = '{' ∨ c = '#') ∧ (d = '#' ∨ d = '}')

namespace Html

variable {B : Char → Bool} {β : Bonds}

namespace Embedded

theorem dropLastBlank_eq (t : Text) :
    ∃ u v v', t = u ++ v ∧ dropLastBlank t = u ++ v' ∧ Blanks isSpacing v ∧
      Blanks isSpacing v' := by
  have hspaces : ∀ t : Text, Blanks isSpacing (t.takeWhile isSpace) := by
    intro t c hc
    have := List.mem_takeWhile_imp hc
    simp only [isSpace, Bool.or_eq_true, beq_iff_eq] at this
    rcases this with rfl | rfl <;> rfl
  induction t with
  | nil => exact ⟨[], [], [], rfl, rfl, .nil, .nil⟩
  | cons c t ih =>
      unfold dropLastBlank
      split
      · next h =>
          simp only [Bool.and_eq_true, decide_eq_true_eq] at h
          obtain ⟨rfl, hlast⟩ := h
          have hrest : Blanks isSpacing (t.dropWhile isSpace) := by
            unfold isLastBlank at hlast
            split at hlast
            · next h => rw [h]; exact .nil
            · next h => rw [h]; simp [Text.Blanks, isSpacing]
            · simp at hlast
          refine ⟨[], '\n' :: t, t.dropWhile isSpace, rfl, rfl, ?_, hrest⟩
          rw [← List.takeWhile_append_dropWhile (p := isSpace) (l := t)]
          exact Text.Blanks.cons_iff.mpr ⟨rfl, (hspaces t).append hrest⟩
      · obtain ⟨u, v, v', ht, hd, hv, hv'⟩ := ih
        exact ⟨c :: u, v, v', by rw [ht]; rfl, by rw [hd]; rfl, hv, hv'⟩

theorem dropLastBlank_respaced (hB : ∀ c, isSpacing c = true → B c = true) (t : Text)
    (q : Option Char) : Respaced B β q t (dropLastBlank t) := by
  obtain ⟨u, v, v', ht, hd, hv, hv'⟩ := dropLastBlank_eq t
  rw [hd]
  nth_rewrite 1 [ht]
  exact (Respaced.refl B β q u).append_blanks (hv.mono hB) (hv'.mono hB)

theorem dropLastBlank_solid {t : Text} (h : Solid t) : Solid (dropLastBlank t) := by
  obtain ⟨u, v, v', ht, hd, hv, -⟩ := dropLastBlank_eq t
  obtain ⟨c, hc, hgap⟩ := h
  rw [ht, List.mem_append] at hc
  rw [hd]
  rcases hc with hc | hc
  · exact ⟨c, List.mem_append_left _ hc, hgap⟩
  · exact absurd ⟨c, hc, hgap⟩ (not_solid_of_spacing hv)

theorem dropLastBlank_head {t : Text} (h : t.head? ≠ some '\n') :
    (dropLastBlank t).head? = t.head? := by
  cases t with
  | nil => rfl
  | cons c t =>
      have hc : c ≠ '\n' := by simpa using h
      simp [dropLastBlank, hc]

theorem mem_of_mem_dropLastBlank {c : Char} {t : Text} (h : c ∈ dropLastBlank t) : c ∈ t := by
  induction t with
  | nil => exact h
  | cons d t ih =>
      unfold dropLastBlank at h
      split at h
      · exact List.mem_cons_of_mem _ ((List.dropWhile_suffix _).subset h)
      · rcases List.mem_cons.mp h with rfl | h
        · exact List.mem_cons_self ..
        · exact List.mem_cons_of_mem _ (ih h)

theorem reindent_respaced {white indentation : Text} (hB : ∀ c, isSpacing c = true → B c = true)
    (hw : Blanks B white) (hi : Blanks B indentation) (t : Text) :
    Respaced B β none t (reindent white indentation t) := by
  have newline : Blanks B ['\n'] := by simpa [Text.Blanks] using hB '\n' rfl
  have moved : Respaced B β none t
      (if white.isEmpty then t else Text.replaceAll ('\n' :: white) ['\n'] t) := by
    split
    · exact .refl B β none t
    · exact .replaceAll (newline.append hw) newline (by simp) (by simp) t none
  unfold reindent
  refine Respaced.prepend_blanks ?_ hi
  exact moved.trans (.replaceAll newline (newline.append hi) (by simp) (by simp) _ none)

theorem reindent_solid {white indentation t : Text} (hw : Blanks isSpacing white) (h : Solid t) :
    Solid (reindent white indentation t) := by
  obtain ⟨c, hc, hgap⟩ := h
  have hnl : c ≠ '\n' := by
    rintro rfl
    exact absurd hgap (by decide)
  have hwhite : c ∉ white := fun hm => not_solid_of_spacing hw ⟨c, hm, hgap⟩
  refine ⟨c, List.mem_append_right _ (Text.mem_replaceAll (by simp) ?_ (by simpa using hnl)), hgap⟩
  split
  · exact hc
  · exact Text.mem_replaceAll (by simp) hc (by simp [hnl, hwhite])

theorem wrapHead?_eq_some {inner head : Text} (h : wrapHead? inner = some head) :
    ∃ rest, inner = head ++ rest ∧ head.head? = some '<' ∧
      (rest = [] ∨ rest.head? = some '\n' ∨ head.getLast? = some '[') := by
  unfold wrapHead? at h
  split at h
  · next hp =>
      obtain rfl : inner.takeWhile (· != '\n') = head := by simpa using h
      obtain ⟨r, rfl⟩ := List.isPrefixOf_iff_prefix.mp hp
      refine ⟨_, (List.takeWhile_append_dropWhile (p := (· != '\n'))).symm, by simp, ?_⟩
      have hc := List.head?_dropWhile_not (· != '\n') ("<!--".toList ++ r)
      cases hd : ("<!--".toList ++ r).dropWhile (· != '\n') with
      | nil => exact .inl rfl
      | cons c rest =>
          rw [hd] at hc
          exact .inr (.inl (by simpa using hc))
  · split at h
    · next hp =>
        obtain rfl : "<![CDATA[".toList = head := by simpa using h
        obtain ⟨r, rfl⟩ := List.isPrefixOf_iff_prefix.mp hp
        exact ⟨r, rfl, rfl, .inr (.inr rfl)⟩
    · simp at h

/-- What is known of content and its wrapping. -/
structure Wrapped.Parts (w : Wrapped) (t : Text) : Prop where
  /-- The parts make up the text, up to a last line end. -/
  whole : ∃ e, t = w.head ++ (w.lead ++ (w.body ++ (w.tail ++ e))) ∧ Blanks isSpacing e
  lead : Blanks isSpacing w.lead
  tail : ∃ d, w.tail.head? = some d ∧ (d = '-' ∨ d = ']')
  head : w.head.head? = some '<'
  body : w.body.head? ≠ some '\n'
  /-- Content that starts right after the head follows a bracket. -/
  seam : w.lead = [] → w.body = [] ∨ w.head.getLast? = some '['

theorem unwrap?_eq_some {t : Text} {w : Wrapped} (h : unwrap? t = some w) : w.Parts t := by
  have isLead : ∀ c : Char, (isSpace c || c == '\n') = true → isSpacing c = true := by
    intro c hc
    simp only [isSpace, Bool.or_eq_true, beq_iff_eq] at hc
    rcases hc with (rfl | rfl) | rfl <;> rfl
  unfold unwrap? at h
  simp only at h
  generalize hwhole : (if t.getLast? = some '\n' then t.dropLast else t) = whole at h
  have ht : ∃ e, t = whole ++ e ∧ Blanks isSpacing e := by
    split at hwhole
    · next hl =>
        refine ⟨['\n'], ?_, by simp [Text.Blanks, isSpacing]⟩
        rw [← hwhole]
        exact (List.dropLast_append_getLast? _ hl).symm
    · exact ⟨[], by simp [hwhole], .nil⟩
  obtain ⟨e, rfl, he⟩ := ht
  split at h
  · next htail =>
      obtain ⟨head, hhead, rfl⟩ := Option.map_eq_some_iff.mp h
      obtain ⟨rest, hinner, hlt, hrest⟩ := wrapHead?_eq_some hhead
      have hdrop : (whole.take (whole.length - 3)).drop head.length = rest := by
        rw [hinner, List.drop_left]
      refine { whole := ⟨e, ?_, he⟩, lead := ?_, tail := ?_, head := hlt, body := ?_, seam := ?_ }
      · simp only [hdrop]
        rw [← List.append_assoc (rest.takeWhile _), List.takeWhile_append_dropWhile,
          ← List.append_assoc head, ← hinner, ← List.append_assoc, List.take_append_drop]
      · intro c hc
        have hc := List.mem_takeWhile_imp (p := fun c => isSpace c || c == '\n') hc
        exact isLead c hc
      · rcases htail with ht | ht
        · exact ⟨'-', by simp [ht], .inl rfl⟩
        · exact ⟨']', by simp [ht], .inr rfl⟩
      · have hc := List.head?_dropWhile_not (fun c => isSpace c || c == '\n')
          ((whole.take (whole.length - 3)).drop head.length)
        intro hn
        simp only [hn] at hc
        exact absurd hc (by decide)
      · simp only [hdrop]
        intro hlead
        rcases hrest with rfl | hn | hb
        · exact .inl rfl
        · -- A line end would be part of the lead.
          cases rest with
          | nil => simp at hn
          | cons c rest =>
              obtain rfl : c = '\n' := by simpa using hn
              simp at hlead
        · exact .inr hb
  · simp at h

theorem Wrapped.indentation?_blanks {w : Wrapped} {b : Text} (h : w.indentation? = some b) :
    Blanks isSpacing b := by
  unfold Wrapped.indentation? at h
  simp only at h
  split at h
  · generalize (if w.lead.getLast? = some '\n' then w.lead.dropLast else w.lead) = lead at h
    split at h
    · simp at h
    · obtain rfl : (lead.reverse.takeWhile isSpace).reverse = b := by simpa using h
      intro c hc
      have hc := List.mem_takeWhile_imp (List.mem_reverse.mp hc)
      simp only [isSpace, Bool.or_eq_true, beq_iff_eq] at hc
      rcases hc with rfl | rfl <;> rfl
  · simp at h

/-- Blanks put before a text whose first character is bound to nothing. -/
theorem respaced_after_break {q : Option Char} {v w t o : Text} (h : Respaced B β none t o)
    (hv : Blanks B v) (hw : Blanks B w) (hw0 : w ≠ [])
    (loose : v = [] → ∀ c d, q = some c → t.head? = some d → ¬β.keeps c d) :
    Respaced B β q (v ++ t) (w ++ o) := by
  refine h.after_break hv hw (fun _ => hw0) fun d hd c hc => ⟨fun hk hv0 => ?_, fun _ h0 => ?_⟩
  · exact absurd hk (loose (by simpa using hv0) c d hc hd)
  · simp [hw0] at h0

/-- Wrapped content put on lines of its own, with its wrapping. -/
theorem Wrapped.Parts.respaced {t indentation body : Text} {w : Wrapped} (hw : w.Parts t)
    (mild : β.Mild) (hB : ∀ c, isSpacing c = true → B c = true) (hi : Blanks B indentation)
    (hbody : Respaced B β none w.body body) :
    Respaced B β none t
      (if body.isEmpty then indentation ++ w.head ++ ['\n'] ++ (indentation ++ w.tail)
        else indentation ++ w.head ++ ['\n'] ++ body ++ '\n' :: (indentation ++ w.tail)) := by
  have newline : Blanks B ['\n'] := by simpa [Text.Blanks] using hB '\n' rfl
  have hlead : Blanks B w.lead := hw.lead.mono hB
  obtain ⟨e, rfl, he⟩ := hw.whole
  obtain ⟨d, htail, hd⟩ := hw.tail
  have htail0 : w.tail ≠ [] := by
    intro h
    simp [h] at htail
  have hhead0 : w.head ≠ [] := by
    intro h
    have := hw.head
    simp [h] at this
  -- Nothing is bound to the end of the wrapping.
  have loose_tail : ∀ c d', (w.tail ++ e).head? = some d' → ¬β.keeps c d' := by
    intro c d' hd' hk
    rw [List.head?_append_of_ne_nil _ htail0, htail] at hd'
    obtain rfl : d = d' := by simpa using hd'
    rcases hd with rfl | rfl <;> exact absurd (mild c _ hk).2 (by decide)
  have tail : Respaced B β none (w.tail ++ e) w.tail := by
    simpa using (Respaced.refl B β none w.tail).append_blanks (he.mono hB) .nil
  -- What follows the head starts on a new line.
  have rest : ∀ q, (w.lead = [] → w.body ≠ [] → ∀ c d, q = some c → ¬β.keeps c d) →
      Respaced B β q (w.lead ++ (w.body ++ (w.tail ++ e)))
        ('\n' :: (if body.isEmpty then indentation ++ w.tail
          else body ++ '\n' :: (indentation ++ w.tail))) := by
    intro q loose
    cases hempty : body.isEmpty with
    | true =>
        have hbody0 : Blanks B w.body := by
          have h0 : body = [] := by simpa using hempty
          rw [h0] at hbody
          exact .of_filter_eq_nil (hbody.filter_eq.trans rfl)
        have h := respaced_after_break (q := q) tail (hlead.append hbody0) (newline.append hi)
          (by simp) fun _ c d' _ hd' => loose_tail c d' hd'
        simpa using h
    | false =>
        have h : Respaced B β none (w.body ++ (w.tail ++ e))
            (body ++ ('\n' :: indentation ++ w.tail)) := by
          refine hbody.append ?_ (.inl (by simpa using hB '\n' rfl)) fun c d' _ hd' _ =>
            loose_tail c d' hd'
          exact respaced_after_break (v := []) (w := '\n' :: indentation) tail .nil
            (newline.append hi)
            (by simp) fun _ c d' _ hd' => loose_tail c d' hd'
        have h := respaced_after_break (q := q) h hlead newline (by simp) ?_
        · simpa using h
        · intro h0 c d' hc hd'
          cases hb : w.body with
          | nil =>
              rw [hb, List.nil_append] at hd'
              exact loose_tail c d' hd'
          | cons b bs => exact loose h0 (by simp [hb]) c d' hc
  have h : Respaced B β none (w.head ++ (w.lead ++ (w.body ++ (w.tail ++ e)))) (w.head ++
      ('\n' :: (if body.isEmpty then indentation ++ w.tail
          else body ++ '\n' :: (indentation ++ w.tail)))) := by
    refine (rest _ ?_).prepend hhead0 none
    intro h0 hb c d' hc hk
    obtain rfl : c = '[' := by simpa [hc] using (hw.seam h0).resolve_left hb
    exact absurd (mild _ _ hk).1 (by decide)
  have h := h.prepend_blanks hi
  cases hempty : body.isEmpty <;> simpa [hempty] using h

end Embedded

namespace Setup

variable {setup : Setup} {language : Language} {indentation white t x : Text} {s s' : State}

/-- No formatter for another language is given, and the one for markup in markup changes blanks
only. It is given texts with unified line ends behind an indentation. -/
structure Faithful (B : Char → Bool) (β : Bonds) (setup : Setup) : Prop where
  javascript : setup.formatters.javascript = none
  css : setup.formatters.css = none
  nested : ∀ w t r, Blanks B w → '\r' ∉ t → t.head? ≠ some '\n' → setup.nested (w ++ t) = .ok r →
    Respaced B β none t r ∧ (Solid t → Solid r)

theorem Faithful.formatterFor_eq (hs : setup.Faithful B β) {f : Text → Except FormatError Text}
    (h : setup.formatterFor language = some f) : f = setup.nested := by
  cases language with
  | html => simpa [formatterFor] using h.symm
  | javascript => simp [formatterFor, hs.javascript] at h
  | css => simp [formatterFor, hs.css] at h
  | unknown => simp [formatterFor] at h

theorem formatContent_eq_ok (hs : setup.Faithful B β) (hB : ∀ c, isSpacing c = true → B c = true)
    (hi : Blanks B indentation) (hw : Blanks isSpacing white) (hcr : '\r' ∉ t)
    (hhead : t.head? ≠ some '\n')
    (h : setup.formatContent language indentation white t s = .ok (x, s')) :
    (∃ uses, s' = { s with uses }) ∧ Respaced B β none t x ∧ (Solid t → Solid x) := by
  unfold formatContent at h
  split at h
  · obtain ⟨rfl, rfl⟩ : t = x ∧ s = s' := by simpa using h
    exact ⟨⟨s.uses, rfl⟩, .refl B β none t, id⟩
  · cases hf : setup.formatterFor language with
    | none =>
        obtain ⟨rfl, rfl⟩ : Embedded.reindent white indentation t = x ∧ s = s' := by
          simpa [hf] using h
        exact ⟨⟨s.uses, rfl⟩, Embedded.reindent_respaced hB (hw.mono hB) hi t,
          Embedded.reindent_solid hw⟩
    | some f =>
        obtain rfl := hs.formatterFor_eq hf
        simp only [hf] at h
        cases hn : setup.nested (indentation ++ t) with
        | error e => simp [hn, bind, Except.bind] at h
        | ok r =>
            obtain ⟨rfl, hs'⟩ : r = x ∧ _ = s' := by
              simpa [hn, bind, Except.bind, pure, Except.pure] using h
            exact ⟨⟨_, hs'.symm⟩, hs.nested indentation t _ hi hcr hhead hn⟩

theorem contentIndentation_eq_ok (hB : ∀ c, isSpacing c = true → B c = true)
    (hpage : Blanks B s.page.indent.char ∧ Blanks B s.page.indent.base)
    (h : setup.contentIndentation s = .ok (indentation, s')) :
    Blanks B indentation ∧ ∃ i, s' = { s with page := { s.page with indent := i } } ∧
      i.char = s.page.indent.char ∧ i.base = s.page.indent.base := by
  unfold contentIndentation at h
  simp only at h
  split at h
  · obtain ⟨rfl, rfl⟩ : [] = indentation ∧ s = s' := by simpa using h
    exact ⟨.nil, s.page.indent, rfl, rfl, rfl⟩
  · cases ht : s.page.indentText (setup.contentLevel s.level) 0 with
    | error e => simp [ht] at h
    | ok r =>
        obtain ⟨t, page⟩ := r
        obtain ⟨rfl, rfl⟩ : t = indentation ∧ { s with page } = s' := by simpa [ht] using h
        unfold Layout.Page.indentText at ht
        cases hi : s.page.indent.text (setup.contentLevel s.level) 0 with
        | error e => simp [hi, Except.map] at ht
        | ok e =>
            obtain ⟨rfl, rfl⟩ : e.1 = t ∧ { s.page with indent := e.2 } = page := by
              simpa [hi, Except.map] using ht
            obtain ⟨hb, hc, hbase⟩ := Layout.Indent.text_blanks (hB ' ' rfl) hpage hi
            exact ⟨hb, e.2, rfl, hc, hbase⟩

/-- Content is written as it is, or as a text on lines of its own that differs from it in blanks. -/
theorem writeEmbedded_eq_ok {t : Token} (hs : setup.Faithful B β) (mild : β.Mild)
    (hB : ∀ c, isSpacing c = true → B c = true)
    (hpage : Blanks B s.page.indent.char ∧ Blanks B s.page.indent.base)
    (hgap : Blanks isSpacing t.gap.blank) (hcr : '\r' ∉ t.text)
    (hhead : ∃ c, t.text.head? = some c ∧ isGapChar c = false)
    (h : setup.writeEmbedded language t s = .ok s') :
    ∃ i uses, (i.char = s.page.indent.char ∧ i.base = s.page.indent.base) ∧
      (s' = State.printRaw { s with page := { s.page with indent := i }, uses } t ∨
        ∃ x, Respaced B β none t.text x ∧ Solid x ∧
          s' = printContent x { s with page := { s.page with indent := i }, uses }) := by
  obtain ⟨c, hc, hcgap⟩ := hhead
  have hhead : t.text.head? ≠ some '\n' := by
    rintro h
    obtain rfl : c = '\n' := Option.some.inj (hc.symm.trans h)
    exact absurd hcgap (by decide)
  have hsolid : Solid t.text := ⟨c, List.mem_of_head? hc, hcgap⟩
  have hdrop : '\r' ∉ Embedded.dropLastBlank t.text :=
    fun hm => hcr (Embedded.mem_of_mem_dropLastBlank hm)
  unfold writeEmbedded at h
  cases hind : setup.contentIndentation s with
  | error e => simp [hind, bind, Except.bind] at h
  | ok r =>
      obtain ⟨indentation, s₁⟩ := r
      obtain ⟨hi, i, rfl, hii⟩ := contentIndentation_eq_ok hB hpage hind
      simp only [hind, bind, Except.bind] at h
      split at h
      · cases hu : Embedded.unwrap? (Embedded.dropLastBlank t.text) with
        | none =>
            obtain rfl : State.printRaw _ t = s' := by simpa [hu, pure, Except.pure] using h
            exact ⟨i, s.uses, hii, .inl rfl⟩
        | some w =>
            have hw := Embedded.unwrap?_eq_some hu
            have hwhite : Blanks isSpacing (w.indentation?.getD t.gap.blank) := by
              cases hb : w.indentation? with
              | none => exact hgap
              | some b => exact Embedded.Wrapped.indentation?_blanks hb
            have hbody : '\r' ∉ Embedded.dropLastBlank w.body := by
              intro hm
              obtain ⟨e, he, -⟩ := hw.whole
              have := Embedded.mem_of_mem_dropLastBlank hm
              exact hdrop (by simp [he, this])
            simp only [hu] at h
            cases hf : setup.formatContent language indentation (w.indentation?.getD t.gap.blank)
                (Embedded.dropLastBlank w.body) { s with page := { s.page with indent := i } } with
            | error e => simp [hf] at h
            | ok r =>
                obtain ⟨body, s₂⟩ := r
                obtain ⟨⟨uses, rfl⟩, hbody, -⟩ := formatContent_eq_ok hs hB hi hwhite hbody
                  (by rw [Embedded.dropLastBlank_head hw.body]; exact hw.body) hf
                have hbody := (Embedded.dropLastBlank_respaced hB w.body none).trans hbody
                have htext := (Embedded.dropLastBlank_respaced hB t.text none).trans
                  (hw.respaced mild hB hi hbody)
                refine ⟨i, uses, hii, .inr ⟨_, htext, ?_, ?_⟩⟩
                · have hlt : '<' ∈ w.head := List.mem_of_head? hw.head
                  refine ⟨'<', ?_, by decide⟩
                  split <;> simp [hlt]
                · simpa [hf, pure, Except.pure] using h.symm
      · cases hf : setup.formatContent language indentation t.gap.blank
            (Embedded.dropLastBlank t.text) { s with page := { s.page with indent := i } } with
        | error e => simp [hf] at h
        | ok r =>
            obtain ⟨x, s₂⟩ := r
            obtain ⟨⟨uses, rfl⟩, hx, hxs⟩ := formatContent_eq_ok hs hB hi hgap hdrop
              (by rw [Embedded.dropLastBlank_head hhead]; exact hhead) hf
            refine ⟨i, uses, hii,
              .inr ⟨x, (Embedded.dropLastBlank_respaced hB t.text none).trans hx,
                hxs (Embedded.dropLastBlank_solid hsolid), ?_⟩⟩
            simpa [hf, pure, Except.pure] using h.symm

end Setup

end Html

end EmbeddedMarkup
