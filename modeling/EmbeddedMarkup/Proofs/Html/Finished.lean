import EmbeddedMarkup.Proofs.Html.Sheet
import EmbeddedMarkup.Proofs.Layout.Indent
import EmbeddedMarkup.Proofs.Text.Joining
import Mathlib.Data.List.Induction
import Mathlib.Data.List.TakeWhile

/-!
# The text of a page that holds lexemes

Taking the text of a page drops spaces and empty lines at its end, drops the line ends at the end of
the last item, and puts the indentation in front of every line. None of this does more than change
blanks, so the text of a page that holds lexemes is again a layout of them: `Holds.code_spread`
gives its shape, and `Holds.code_respaced` compares it with the source.
-/

namespace EmbeddedMarkup

open Text (Blanks Bonds Respaced)

namespace Layout.Indent

variable {B : Char → Bool} {i i' : Indent} {t : Text}

theorem blanks_fill (space : B ' ' = true) (hc : Blanks B i.char) (n : Nat) :
    Blanks B (i.fill n) := by
  have hspace : Blanks B [' '] := by simp [Text.Blanks, space]
  have hunit : Blanks B i.unit := by
    unfold IndentLevel.unit
    split
    · exact hc
    · exact hc.times _
  unfold IndentLevel.fill
  split
  · exact (hunit.times _).append (hspace.times _)
  · exact hspace.times _

theorem text_blanks (space : B ' ' = true) (hi : Blanks B i.char ∧ Blanks B i.base)
    {level column : Int} (h : i.text level column = .ok (t, i')) :
    Blanks B t ∧ i'.char = i.char ∧ i'.base = i.base := by
  obtain ⟨⟨k, hk⟩, table, rfl⟩ := text_eq_ok h
  refine ⟨?_, rfl, rfl⟩
  rcases hk with rfl | rfl
  · exact blanks_fill space hi.1 k
  · exact hi.2.append (blanks_fill space hi.1 k)

end Layout.Indent

namespace Html

open Layout (Page Line)

variable {G B : Char → Bool} {β : Bonds} {σ ρ τ : Seam} {ps qs : List (Lexeme × Bool)}
  {is js : List Text}

namespace Laid

theorem drop_right (h : Laid isSpacing B β σ ps (is ++ js) τ) (hj : ∀ j ∈ js, ¬Solid j) :
    ∃ ρ, Laid isSpacing B β σ ps is ρ := by
  induction js using List.reverseRecOn generalizing τ with
  | nil => exact ⟨τ, by simpa using h⟩
  | append_singleton js j ih =>
      rw [← List.append_assoc] at h
      obtain ⟨ρ, h⟩ := h.dropLast_of_not_solid (hj j (by simp))
      exact ih h fun j hj' => hj j (by simp [hj'])

theorem nil_from (h : Laid G B β σ [] is τ) (σ' : Seam) : ∃ τ', Laid G B β σ' [] is τ' := by
  induction is generalizing σ σ' with
  | nil => exact ⟨σ', .nil σ'⟩
  | cons i is ih =>
      cases h with
      | blank hb rest =>
          obtain ⟨τ', h'⟩ := ih rest (σ'.space i)
          exact ⟨τ', .blank hb h'⟩

theorem space_open (h : Laid G B β σ ps is τ) (ho : σ.Open) (b : Text) :
    ∃ τ', Laid G B β (σ.space b) ps is τ' := by
  rcases ho with ho | rfl
  · rw [Seam.space_of_apart ho]
    exact ⟨τ, h⟩
  · cases ps with
    | nil => exact h.nil_from _
    | cons p ps =>
        cases hb : b.isEmpty with
        | true => exact ⟨τ, by simpa [Seam.space, hb] using h⟩
        | false =>
            have hspace : Seam.space {} b = { ({} : Seam) with apart := true } := by
              simp [Seam.space, hb]
            rw [hspace]
            exact ⟨τ, h.part_first (by simp) (.inr (.inr fun c hc => by simp at hc))⟩

theorem line_text {l : Line} {i i' : Layout.Indent} {t : Text} {indentEmpty : Bool}
    (h : Laid B B β σ ps (l.items ++ is) τ) (ho : σ.Open) (space : B ' ' = true)
    (hi : Blanks B i.char ∧ Blanks B i.base) (ht : l.text i indentEmpty = .ok (t, i')) :
    (Blanks B i'.char ∧ Blanks B i'.base) ∧ ∃ w τ', t = w ++ l.items.flatten ∧ Blanks B w ∧
      Laid B B β (σ.space w) ps (l.items ++ is) τ' := by
  suffices hw : (Blanks B i'.char ∧ Blanks B i'.base) ∧ ∃ w, t = w ++ l.items.flatten ∧
      Blanks B w by
    obtain ⟨hi', w, rfl, hw⟩ := hw
    obtain ⟨τ', h'⟩ := h.space_open ho w
    exact ⟨hi', w, τ', rfl, hw, h'⟩
  unfold Line.text at ht
  split at ht
  · next he =>
      have hitems : l.items = [] := by simpa [Line.isEmpty] using he
      split at ht
      · obtain ⟨hw, hc, hb⟩ := Layout.Indent.text_blanks space hi ht
        exact ⟨by rwa [hc, hb], t, by simp [hitems], hw⟩
      · obtain ⟨rfl, rfl⟩ : [] = t ∧ i = i' := by simpa using ht
        exact ⟨hi, [], by simp [hitems], .nil⟩
  · cases he : i.text l.margin.level l.margin.column with
    | error e => simp [he, Except.map] at ht
    | ok e =>
        obtain ⟨w, i₁⟩ := e
        obtain ⟨rfl, rfl⟩ : w ++ l.items.flatten = t ∧ i₁ = i' := by
          simpa [he, Except.map] using ht
        obtain ⟨hw, hc, hb⟩ := Layout.Indent.text_blanks space hi he
        exact ⟨by rwa [hc, hb], w, rfl, hw⟩

theorem line_texts {ls : List Line} {last : Line} {i i' : Layout.Indent} {ts : List Text}
    {indentEmpty : Bool}
    (h : Laid B B β σ ps (ls.flatMap (fun l => l.items ++ [['\n']]) ++ last.items) τ)
    (ho : σ.Open) (space : B ' ' = true) (hi : Blanks B i.char ∧ Blanks B i.base)
    (ht : Page.lineTexts indentEmpty (ls ++ [last]) i = (.ok ts, i')) :
    ts ≠ [] ∧ ∃ is τ', Laid B B β σ ps is τ' ∧ Text.join ['\n'] ts = is.flatten := by
  have hnl : ¬Solid ['\n'] := not_solid_of_spacing (by simp [Text.Blanks, isSpacing])
  induction ls generalizing σ τ ps i i' ts with
  | nil =>
      simp only [List.nil_append, Page.lineTexts] at ht
      cases hl : last.text i indentEmpty with
      | error e => simp [hl] at ht
      | ok e =>
          obtain ⟨t, i₁⟩ := e
          obtain ⟨rfl, -⟩ : [t] = ts ∧ _ := by simpa [hl, Except.map] using ht
          have h : Laid B B β σ ps (last.items ++ []) τ := by simpa using h
          obtain ⟨-, w, τ', rfl, hw, h'⟩ := h.line_text ho space hi hl
          exact ⟨by simp, w :: last.items, τ', .blank hw (by simpa using h'), by simp [Text.join]⟩
  | cons l ls ih =>
      rw [List.flatMap_cons, List.append_assoc, List.append_assoc] at h
      simp only [List.cons_append, Page.lineTexts] at ht
      cases hl : l.text i indentEmpty with
      | error e => simp [hl] at ht
      | ok e =>
          obtain ⟨t, i₁⟩ := e
          obtain ⟨hi₁, w, τ₁, rfl, hw, h₁⟩ := h.line_text ho space hi hl
          obtain ⟨qs, rs, ρ, rfl, h₂, h₃⟩ := h₁.split
          obtain ⟨hb, h₃⟩ := blank_of_not_solid hnl h₃
          rw [hl] at ht
          cases hrest : Page.lineTexts indentEmpty (ls ++ [last]) i₁ with
          | mk us i₂ =>
              cases us with
              | error e => simp [hrest, Except.map] at ht
              | ok us =>
                  obtain ⟨rfl, -⟩ : (w ++ l.items.flatten) :: us = ts ∧ _ := by
                    simpa [hrest, Except.map] using ht
                  obtain ⟨hus, js, τ', h₄, hj⟩ :=
                    ih h₃ (ρ.open_space (List.cons_ne_nil _ _)) hi₁ hrest
                  refine ⟨by simp, w :: (l.items ++ ['\n'] :: js), τ',
                    .blank hw (h₂.append (.blank hb h₄)), ?_⟩
                  rw [Text.join_cons hus, hj]
                  simp

end Laid

namespace Holds

variable {p : Page} {next : List Text}

theorem items_trim (l : Line) : ∃ js, l.items = l.trim.items ++ js ∧ ∀ j ∈ js, ¬Solid j := by
  have hsp : ¬Solid [' '] := not_solid_of_spacing (by simp [Text.Blanks, isSpacing])
  refine ⟨l.items.drop (l.items.length - l.trailingSpaces), by simp [Line.trim], ?_⟩
  intro j hj
  have hj : j ∈ l.items.reverse.takeWhile (· == [' ']) := by
    have hlen : l.trailingSpaces ≤ l.items.reverse.length :=
      (List.takeWhile_prefix _).length_le
    have htake : l.items.reverse.take l.trailingSpaces = l.items.reverse.takeWhile (· == [' ']) :=
      (List.prefix_iff_eq_take.mp (List.takeWhile_prefix _)).symm
    rw [← htake, List.take_reverse, List.mem_reverse]
    exact hj
  have hj : j = [' '] := by simpa using List.mem_takeWhile_imp hj
  exact hj ▸ hsp

theorem laid_trim {current : Line} {is : List Text}
    (h : Laid isSpacing B β σ ps (is ++ current.items) τ) :
    ∃ ρ, Laid isSpacing B β σ ps (is ++ current.trim.items) ρ := by
  obtain ⟨js, hjs, hj⟩ := items_trim current
  rw [hjs, ← List.append_assoc] at h
  exact h.drop_right hj

theorem laid_dropEmptyLines {above : List Line} {current : Line}
    (h : Laid isSpacing B β σ ps
      (above.reverse.flatMap (fun l => l.items ++ [['\n']]) ++ current.items) τ) :
    ∃ ρ, Laid isSpacing B β σ ps
      ((Page.dropEmptyLines current above).2.reverse.flatMap (fun l => l.items ++ [['\n']]) ++
        (Page.dropEmptyLines current above).1.items) ρ := by
  have hnl : ¬Solid ['\n'] := not_solid_of_spacing (by simp [Text.Blanks, isSpacing])
  induction above generalizing current τ with
  | nil => exact ⟨τ, h⟩
  | cons l above ih =>
      unfold Page.dropEmptyLines
      split
      · next he =>
          have hitems : current.items = [] := by simpa [Line.isEmpty] using he
          simp only [List.reverse_cons, List.flatMap_append, List.flatMap_cons, List.flatMap_nil,
            List.append_nil, hitems, ← List.append_assoc] at h
          obtain ⟨ρ, h⟩ := h.dropLast_of_not_solid hnl
          obtain ⟨ρ, h⟩ := laid_trim h
          exact ih h
      · exact ⟨τ, h⟩

/-- Seeing to the last item of the last line leaves a layout, where the last lexeme may lack line
ends. -/
theorem laid_pop {l : Line} (h : Laid isSpacing B β σ ps (is ++ l.items) τ)
    (newline : B '\n' = true) :
    ∃ qs ρ, Trims ps qs ∧ Laid isSpacing B β σ qs (is ++ (match l.pop.1 with
      | none => l.pop.2
      | some item => if item.isEmpty then l.pop.2
          else l.pop.2.push (Text.dropRightWhile (· == '\n') item)).items) ρ := by
  unfold Line.pop
  cases hl : l.last? with
  | none => exact ⟨ps, τ, .same ps, h⟩
  | some item =>
      have hitems : l.items = l.items.dropLast ++ [item] :=
        (List.dropLast_append_getLast? item hl).symm
      rw [hitems, ← List.append_assoc] at h
      cases hi : item.isEmpty with
      | true =>
          have hi : item = [] := by simpa using hi
          have hns : ¬Solid item := hi ▸ not_solid_of_spacing .nil
          obtain ⟨ρ, h⟩ := h.dropLast_of_not_solid hns
          exact ⟨ps, ρ, .same ps, by simpa [hi] using h⟩
      | false =>
          obtain ⟨n, hx⟩ := Text.dropRightWhile_newlines item
          obtain ⟨qs, ρ, ht, h⟩ := h.trim_last newline hx
          exact ⟨qs, ρ, ht, by simpa [hi, Line.push] using h⟩

/-- A finished page is a layout of the same lexemes, where the last may lack line ends. -/
theorem laid_finish (h : Holds B β p ps σ next) (newline : B '\n' = true) :
    ∃ qs ρ, Trims ps qs ∧ Laid isSpacing B β {} qs p.finish.trail ρ := by
  have hnl : Blanks isSpacing ['\n'] := by simp [Text.Blanks, isSpacing]
  obtain ⟨ρ, h⟩ := laid_trim h.laid
  obtain ⟨ρ, h⟩ := laid_dropEmptyLines h
  obtain ⟨qs, ρ, ht, h⟩ := laid_pop h newline
  unfold Page.finish
  simp only [Page.trim, if_true]
  split
  · refine ⟨qs, ρ.space ['\n'], ht, ?_⟩
    rw [Page.trail_startLine]
    exact h.snoc_blank hnl
  · exact ⟨qs, ρ, ht, h⟩

theorem indent_finish (p : Page) : p.finish.indent = p.indent := by
  unfold Page.finish
  simp only [Page.trim, if_true]
  split <;> rfl

theorem laid_code {out : Text} (h : Holds B β p ps σ next)
    (hB : ∀ c, isSpacing c = true → B c = true) (hout : (p.code ['\n']).1 = .ok out) :
    ∃ qs is ρ, Trims ps qs ∧ Laid B B β {} qs is ρ ∧ out = is.flatten := by
  obtain ⟨qs, ρ, ht, laid⟩ := h.laid_finish (hB '\n' rfl)
  unfold Page.code Page.texts at hout
  generalize hts :
    Page.lineTexts p.finish.indentEmptyLines p.finish.lines p.finish.indent = r at hout
  obtain ⟨ts, i⟩ := r
  cases ts with
  | error e => simp [Except.map] at hout
  | ok ts =>
      have hout : Text.join ['\n'] (ts.flatMap (Text.splitOn '\n')) = out := by
        simpa [Except.map] using hout
      have hi : Blanks B p.finish.indent.char ∧ Blanks B p.finish.indent.base := by
        rw [indent_finish]
        exact h.indent
      obtain ⟨-, is, ρ', laid', hjoin⟩ :=
        (laid.mono hB).line_texts (.inr rfl) (hB ' ' rfl) hi hts
      rw [Text.join_flatMap_splitOn, hjoin] at hout
      exact ⟨qs, is, ρ', ht, laid', hout.symm⟩

theorem code_spread {out : Text} (h : Holds B β p ps σ next)
    (hB : ∀ c, isSpacing c = true → B c = true) (hout : (p.code ['\n']).1 = .ok out) :
    Spread B ps out := by
  obtain ⟨qs, is, ρ, ht, laid, rfl⟩ := h.laid_code hB hout
  have := ht.spread (hB '\n' rfl) (laid.spread .nil)
  simpa using this

/-- The text of a page is the text that its lexemes are cut from, with other blanks. -/
theorem code_respaced {s out : Text} (h : Holds B β p ps σ next)
    (hB : ∀ c, isSpacing c = true → B c = true) (hout : (p.code ['\n']).1 = .ok out)
    (cut : Cut B (ps.map Prod.fst) s) : Respaced B β none s out := by
  obtain ⟨qs, is, ρ, ht, laid, rfl⟩ := h.laid_code hB hout
  simpa using laid.respaced (ht.cut (hB '\n' rfl) cut) .nil rfl

theorem code_solid {out : Text} (h : Holds B β p ps σ next)
    (hB : ∀ c, isSpacing c = true → B c = true) (hout : (p.code ['\n']).1 = .ok out)
    (hps : ps ≠ []) : Solid out := by
  obtain ⟨qs, is, ρ, ht, laid, rfl⟩ := h.laid_code hB hout
  have hqs : qs ≠ [] := by
    cases ht with
    | same => exact hps
    | last => simp
  obtain ⟨i, hi, c, hc, hgap⟩ := laid.exists_solid hqs
  exact ⟨c, List.mem_flatten.mpr ⟨i, hi, hc⟩, hgap⟩

end Holds

end Html

end EmbeddedMarkup
