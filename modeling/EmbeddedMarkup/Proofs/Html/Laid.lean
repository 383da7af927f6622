import EmbeddedMarkup.Html.Lexeme
import EmbeddedMarkup.Proofs.Text.Respaced
import Mathlib.Data.List.Basic
import Mathlib.Data.List.TakeWhile

/-!
# Lexemes laid out

A page holds the lexemes of its text and blanks between them. `Laid G B β σ ps is τ` reads a list of
items from left to right and checks that it is such a layout of the lexemes `ps`: an item is a run
of blanks, the text of the next lexeme, or, for content that is formatted on its own, a text that
differs from the lexeme in blanks. Each lexeme comes with a mark that says whether it is such
content. The blanks between lexemes are those of the class `G`, the ones that content may differ in
those of `B`.

Between two items the reading is at a `Seam`: the last character of the lexeme before, whether that
lexeme was formatted content, and whether blanks came after it. Whether the next lexeme may follow
is decided there, by the bonds `β`.

A layout tells two things. `Laid.spread` forgets the bonds and gives the shape of the text. Together
with `Cut`, which says that the source is made of the lexemes and the gaps between them,
`Laid.respaced` gives that the text is the source with other blanks.
-/

namespace EmbeddedMarkup.Html

open Text (Blanks Bonds Respaced)

/-- The blanks that the formatter writes: spaces, tabs and line ends. -/
def isSpacing (c : Char) : Bool := c == ' ' || c == '\t' || c == '\n'

/-- A text with a character that belongs to no gap. -/
def Solid (x : Text) : Prop := ∃ c ∈ x, isGapChar c = false

theorem spacing_of_gapChar {c : Char} (hgap : isGapChar c = true) (hc : c ≠ '\r') :
    isSpacing c = true := by
  simp only [isGapChar, GapChars.isGap, GapChars.isLineEnd, isSpacing, List.contains_nil,
    Bool.or_false, Bool.or_eq_true, beq_iff_eq] at hgap ⊢
  tauto

theorem gapChar_of_spacing {c : Char} (h : isSpacing c = true) : isGapChar c = true := by
  simp only [isSpacing, Bool.or_eq_true, beq_iff_eq] at h
  rcases h with (rfl | rfl) | rfl <;> decide

theorem blanks_takeWhile (t : Text) :
    Blanks isSpacing (t.takeWhile fun c => c == '\t' || c == ' ') := by
  intro c hc
  have hc := List.mem_takeWhile_imp hc
  simp only [Bool.or_eq_true, beq_iff_eq] at hc
  rcases hc with rfl | rfl <;> rfl

theorem not_solid_of_spacing {x : Text} (h : Blanks isSpacing x) : ¬Solid x := by
  rintro ⟨c, hc, hgap⟩
  simp [gapChar_of_spacing (h c hc)] at hgap

/-- A place between two items. -/
structure Seam where
  /-- The last character of the lexeme before, if there is one. -/
  last : Option Char := none
  /-- Whether that lexeme was formatted content. -/
  closed : Bool := false
  /-- Whether blanks came after it. -/
  apart : Bool := false

namespace Seam

def space (σ : Seam) (b : Text) : Seam := { σ with apart := σ.apart || !b.isEmpty }

def after (l : Lexeme) (content : Bool) : Seam := { last := l.text.getLast?, closed := content }

/-- Whether the blanks in front of the lexeme may be what they are. -/
def Allows (σ : Seam) (β : Bonds) (l : Lexeme) : Prop :=
  ∀ d, l.text.head? = some d → β.Allows σ.last d l.gap.isPresent σ.apart

def Takes (σ : Seam) (β : Bonds) (l : Lexeme) : Prop :=
  (σ.closed = true → σ.apart = true) ∧ σ.Allows β l

def TakesContent (σ : Seam) (β : Bonds) (l : Lexeme) : Prop :=
  σ.Takes β l ∧ (σ.last ≠ none → σ.apart = true)

theorem space_nil (σ : Seam) : σ.space [] = σ := by simp [space]

theorem space_apart {σ : Seam} {w : Text} (apart : σ.apart = !w.isEmpty) (b : Text) :
    (σ.space b).apart = !(w ++ b).isEmpty := by
  cases w <;> cases b <;> simp [space, apart]

theorem space_of_apart {σ : Seam} (h : σ.apart = true) (b : Text) : σ.space b = σ := by
  cases σ
  simp_all [space]

end Seam

variable (G B : Char → Bool) (β : Bonds)

/-- The items `is` are a layout of the lexemes `ps`, from one seam to another. -/
inductive Laid : Seam → List (Lexeme × Bool) → List Text → Seam → Prop where
  | nil (σ : Seam) : Laid σ [] [] σ
  | blank {σ τ : Seam} {ps : List (Lexeme × Bool)} {b : Text} {is : List Text} (hb : Blanks G b)
      (rest : Laid (σ.space b) ps is τ) : Laid σ ps (b :: is) τ
  | lexeme {σ τ : Seam} {ps : List (Lexeme × Bool)} {l : Lexeme} {m : Bool} {is : List Text}
      (solid : Solid l.text) (takes : σ.Takes β l) (rest : Laid (.after l false) ps is τ) :
      Laid σ ((l, m) :: ps) (l.text :: is) τ
  | content {σ τ : Seam} {ps : List (Lexeme × Bool)} {l : Lexeme} {x : Text} {is : List Text}
      (solid : Solid x) (takes : σ.TakesContent β l) (same : Respaced B β none l.text x)
      (rest : Laid (.after l true) ps is τ) : Laid σ ((l, true) :: ps) (x :: is) τ

variable {G B β} {σ ρ τ : Seam} {ps qs : List (Lexeme × Bool)} {is js : List Text}

namespace Laid

theorem append (h : Laid G B β σ ps is ρ) (h' : Laid G B β ρ qs js τ) :
    Laid G B β σ (ps ++ qs) (is ++ js) τ := by
  induction h with
  | nil => exact h'
  | blank hb _ ih => exact .blank hb (ih h')
  | lexeme solid takes _ ih => exact .lexeme solid takes (ih h')
  | content solid takes same _ ih => exact .content solid takes same (ih h')

theorem split (h : Laid G B β σ ps (is ++ js) τ) :
    ∃ qs rs ρ, ps = qs ++ rs ∧ Laid G B β σ qs is ρ ∧ Laid G B β ρ rs js τ := by
  induction is generalizing σ ps with
  | nil => exact ⟨[], ps, σ, rfl, .nil σ, h⟩
  | cons i is ih =>
      cases h with
      | blank hb rest =>
          obtain ⟨qs, rs, ρ, rfl, h₁, h₂⟩ := ih rest
          exact ⟨qs, rs, ρ, rfl, .blank hb h₁, h₂⟩
      | lexeme solid takes rest =>
          obtain ⟨qs, rs, ρ, rfl, h₁, h₂⟩ := ih rest
          exact ⟨_ :: qs, rs, ρ, rfl, .lexeme solid takes h₁, h₂⟩
      | content solid takes same rest =>
          obtain ⟨qs, rs, ρ, rfl, h₁, h₂⟩ := ih rest
          exact ⟨_ :: qs, rs, ρ, rfl, .content solid takes same h₁, h₂⟩

theorem snoc_blank {b : Text} (h : Laid G B β σ ps is ρ) (hb : Blanks G b) :
    Laid G B β σ ps (is ++ [b]) (ρ.space b) := by
  simpa using h.append (.blank hb (.nil _))

theorem snoc_lexeme {l : Lexeme} (h : Laid G B β σ ps is ρ) (solid : Solid l.text)
    (takes : ρ.Takes β l) (m : Bool) :
    Laid G B β σ (ps ++ [(l, m)]) (is ++ [l.text]) (.after l false) :=
  h.append (.lexeme solid takes (.nil _))

theorem snoc_content {l : Lexeme} {x : Text} (h : Laid G B β σ ps is ρ) (solid : Solid x)
    (takes : ρ.TakesContent β l) (same : Respaced B β none l.text x) :
    Laid G B β σ (ps ++ [(l, true)]) (is ++ [x]) (.after l true) :=
  h.append (.content solid takes same (.nil _))

theorem mono {G' : Char → Bool} (h : Laid G B β σ ps is τ) (hG : ∀ c, G c = true → G' c = true) :
    Laid G' B β σ ps is τ := by
  induction h with
  | nil => exact .nil _
  | blank hb _ ih => exact .blank (hb.mono hG) ih
  | lexeme solid takes _ ih => exact .lexeme solid takes ih
  | content solid takes same _ ih => exact .content solid takes same ih

/-- An item that is not solid is a run of blanks between lexemes. -/
theorem blank_of_not_solid {b : Text} (hb : ¬Solid b) (h : Laid G B β σ ps (b :: is) τ) :
    Blanks G b ∧ Laid G B β (σ.space b) ps is τ := by
  cases h with
  | blank hb rest => exact ⟨hb, rest⟩
  | lexeme solid _ _ => exact absurd solid hb
  | content solid _ _ _ => exact absurd solid hb

theorem dropLast_of_not_solid {b : Text} (hb : ¬Solid b) (h : Laid G B β σ ps (is ++ [b]) τ) :
    ∃ ρ, Laid G B β σ ps is ρ := by
  obtain ⟨qs, rs, ρ, rfl, h₁, h₂⟩ := h.split
  obtain ⟨-, h₂⟩ := blank_of_not_solid hb h₂
  cases h₂
  exact ⟨ρ, by simpa using h₁⟩

theorem apart_of_snoc {b : Text} (hb : ¬Solid b) (hb0 : b ≠ [])
    (h : Laid G B β σ ps (is ++ [b]) τ) :
    τ.apart = true := by
  obtain ⟨qs, rs, ρ, rfl, h₁, h₂⟩ := h.split
  obtain ⟨-, h₂⟩ := blank_of_not_solid hb h₂
  cases h₂
  simp [Seam.space, hb0]

theorem exists_solid (h : Laid G B β σ ps is τ) (hps : ps ≠ []) : ∃ i ∈ is, Solid i := by
  induction h with
  | nil => exact absurd rfl hps
  | blank _ _ ih =>
      obtain ⟨i, hi, hs⟩ := ih hps
      exact ⟨i, List.mem_cons_of_mem _ hi, hs⟩
  | lexeme solid _ _ _ => exact ⟨_, List.mem_cons_self .., solid⟩
  | content solid _ _ _ _ => exact ⟨_, List.mem_cons_self .., solid⟩

end Laid

/-- The lexemes of a text in order, each with blanks in front of it, and blanks at the end. Content
that is formatted on its own may have other blanks inside, and the last lexeme may lack line ends
at its end. -/
inductive Spread (B : Char → Bool) : List (Lexeme × Bool) → Text → Prop where
  | nil {w : Text} (hw : Blanks B w) : Spread B [] w
  | lexeme {ps : List (Lexeme × Bool)} {l : Lexeme} {m : Bool} {w out : Text} (hw : Blanks B w)
      (rest : Spread B ps out) : Spread B ((l, m) :: ps) (w ++ l.text ++ out)
  | content {ps : List (Lexeme × Bool)} {l : Lexeme} {w x out : Text} (hw : Blanks B w)
      (same : (x.filter fun c => !B c) = l.text.filter fun c => !B c) (rest : Spread B ps out) :
      Spread B ((l, true) :: ps) (w ++ x ++ out)
  | last {l : Lexeme} {m : Bool} {w v u : Text} {n : Nat} (hw : Blanks B w) (hv : Blanks B v)
      (trimmed : l.text = u ++ List.replicate n '\n') : Spread B [(l, m)] (w ++ u ++ v)

theorem Spread.prepend {w out : Text} (h : Spread B ps out) (hw : Blanks B w) :
    Spread B ps (w ++ out) := by
  cases h with
  | nil hv => exact .nil (hw.append hv)
  | lexeme hv rest =>
      rw [← List.append_assoc, ← List.append_assoc]
      exact .lexeme (hw.append hv) rest
  | content hv same rest =>
      rw [← List.append_assoc, ← List.append_assoc]
      exact .content (hw.append hv) same rest
  | last hv hv' trimmed =>
      rw [← List.append_assoc, ← List.append_assoc]
      exact .last (hw.append hv) hv' trimmed

theorem Laid.spread (h : Laid B B β σ ps is τ) {v : Text} (hv : Blanks B v) :
    Spread B ps (is.flatten ++ v) := by
  induction h with
  | nil => exact .nil hv
  | blank hb _ ih =>
      rw [List.flatten_cons, List.append_assoc]
      exact ih.prepend hb
  | lexeme _ _ _ ih =>
      rw [List.flatten_cons, List.append_assoc]
      exact .lexeme .nil ih
  | content _ _ same _ ih =>
      rw [List.flatten_cons, List.append_assoc]
      exact .content .nil same.filter_eq.symm ih

/-- The text is made of the lexemes, with the gap of each in front of it and blanks at the end. -/
inductive Cut (B : Char → Bool) : List Lexeme → Text → Prop where
  | nil {g : Text} (hg : Blanks B g) : Cut B [] g
  | cons {ls : List Lexeme} {l : Lexeme} {g s : Text} (hg : Blanks B g)
      (gap : l.gap.isPresent = !g.isEmpty) (hl : l.text ≠ []) (rest : Cut B ls s) :
      Cut B (l :: ls) (g ++ (l.text ++ s))

theorem Cut.mono {A : Char → Bool} {ls : List Lexeme} {s : Text} (h : Cut A ls s)
    (hAB : ∀ c, A c = true → B c = true) : Cut B ls s := by
  induction h with
  | nil hg => exact .nil (hg.mono hAB)
  | cons hg gap hl _ ih => exact .cons (hg.mono hAB) gap hl ih

namespace Laid

/-- Blanks come after formatted content, unless it is the last. -/
theorem starts_blank {w s : Text} (h : Laid B B β σ ps is τ) (closed : σ.closed = true)
    (cut : Cut B (ps.map Prod.fst) s) (hw : Blanks B w) (apart : σ.apart = !w.isEmpty) :
    (w ++ is.flatten).head?.any B = true ∨ Blanks B s := by
  -- The first lexeme is taken only apart, so the blanks before it are not empty.
  have first : ∀ {σ : Seam} {w u : Text}, (σ.closed = true → σ.apart = true) → σ.closed = true →
      Blanks B w → σ.apart = !w.isEmpty → (w ++ u).head?.any B = true := by
    intro σ w u takes closed hw apart
    cases w with
    | nil => simp [takes closed] at apart
    | cons c w => simp [hw c (by simp)]
  induction h generalizing w with
  | nil =>
      cases cut with
      | nil hg => exact .inr hg
  | blank hb _ ih =>
      have h := ih closed cut (hw.append hb) (Seam.space_apart apart _)
      simpa using h
  | lexeme _ takes _ _ => exact .inl (first takes.1 closed hw apart)
  | content _ takes _ _ _ => exact .inl (first takes.1.1 closed hw apart)

/-- No bond is torn by the blanks after formatted content. -/
theorem loose_of_closed {s : Text} {c d : Char} (h : Laid B B β σ ps is τ)
    (closed : σ.closed = true) (cut : Cut B (ps.map Prod.fst) s) (hd : s.head? = some d)
    (hB : B d = false) (hc : σ.last = some c) : ¬β.keeps c d := by
  have first : ∀ {σ : Seam} {l : Lexeme} {ls : List Lexeme}, σ.closed = true → σ.last = some c →
      σ.Takes β l → Cut B (l :: ls) s → ¬β.keeps c d := by
    intro σ l ls closed hc takes cut hk
    cases cut with
    | @cons _ _ g s hg gap hl _ =>
        cases g with
        | nil =>
            have hd : l.text.head? = some d := by
              rw [← hd, List.nil_append, List.head?_append_of_ne_nil _ hl]
            have := (takes.2 d hd c hc).1 hk (by simpa using gap)
            simp [takes.1 closed] at this
        | cons e g =>
            obtain rfl : e = d := by simpa using hd
            simp [hg e (by simp)] at hB
  induction h with
  | nil =>
      cases cut with
      | nil hg => simp [hg d (List.mem_of_head? hd)] at hB
  | blank _ _ ih => exact ih closed cut hc
  | lexeme _ takes _ _ => exact first closed hc takes cut
  | content _ takes _ _ _ => exact first closed hc takes.1 cut

/-- A layout of the lexemes of a text is the text with other blanks. -/
theorem respaced {w s : Text} (h : Laid B B β σ ps is τ) (cut : Cut B (ps.map Prod.fst) s)
    (hw : Blanks B w) (apart : σ.apart = !w.isEmpty) :
    Respaced B β σ.last s (w ++ is.flatten) := by
  induction h generalizing w s with
  | nil =>
      cases cut with
      | nil hg => simpa using Respaced.blank hg hw
  | blank hb _ ih =>
      have h := ih cut (hw.append hb) (Seam.space_apart apart _)
      simpa [Seam.space] using h
  | @lexeme σ _ _ l _ _ _ takes _ ih =>
      cases cut with
      | @cons _ _ g s hg gap hl cut =>
          have h : Respaced B β l.text.getLast? s _ := ih cut .nil rfl
          rw [List.flatten_cons]
          refine (h.prepend hl _).after_gap hg hw ?_ ?_
          · rw [List.head?_append_of_ne_nil _ hl, List.head?_append_of_ne_nil _ hl]
          · intro d hd _
            rw [List.head?_append_of_ne_nil _ hl] at hd
            have := takes.2 d hd
            rwa [gap, apart] at this
  | @content σ _ _ l x _ _ takes same rest ih =>
      cases cut with
      | @cons _ _ g s hg gap hl cut =>
          have h : Respaced B β l.text.getLast? s _ := ih cut .nil rfl
          have front : Respaced B β σ.last (g ++ l.text) (w ++ x) := by
            refine same.after_break hg hw ?_ ?_
            · intro hq hw0
              simp [takes.2 hq, hw0] at apart
            · intro d hd
              have := takes.1.2 d hd
              rwa [gap, apart] at this
          have hlast : (g ++ l.text).getLast?.or σ.last = l.text.getLast? := by
            rw [List.getLast?_append_of_ne_nil _ hl, List.getLast?_eq_some_getLast hl]
            rfl
          rw [List.flatten_cons, ← List.append_assoc, ← List.append_assoc]
          refine front.append ?_ ?_ ?_
          · rw [hlast]
            exact h
          · exact rest.starts_blank rfl cut .nil rfl
          · intro c d hc hd hB
            rw [hlast] at hc
            exact rest.loose_of_closed rfl cut hd hB hc

end Laid

/-- The same lexemes, where the last one may lack line ends at its end. -/
inductive Trims : List (Lexeme × Bool) → List (Lexeme × Bool) → Prop where
  | same (ps : List (Lexeme × Bool)) : Trims ps ps
  | last {ps : List (Lexeme × Bool)} {l : Lexeme} {m : Bool} {u : Text} {n : Nat} (hu : u ≠ [])
      (trimmed : l.text = u ++ List.replicate n '\n') :
      Trims (ps ++ [(l, m)]) (ps ++ [({ l with text := u }, m)])

section Trims

variable (newline : B '\n' = true)

include newline

theorem blanks_newlines (n : Nat) : Blanks B (List.replicate n '\n') := by
  intro c hc
  rw [List.eq_of_mem_replicate hc]
  exact newline

theorem Trims.spread {out : Text} (h : Trims ps qs) (hs : Spread B qs out) : Spread B ps out := by
  cases h with
  | same => exact hs
  | @last ps l m u n hu trimmed =>
      induction ps generalizing out with
      | nil =>
          cases hs with
          | lexeme hw rest =>
              cases rest with
              | nil hv => exact .last hw hv trimmed
          | content hw same rest =>
              refine .content hw ?_ rest
              rw [same, trimmed, List.filter_append, (blanks_newlines newline n).filter_eq_nil]
              simp
          | @last _ _ w v u₁ n₁ hw hv trimmed₁ =>
              have : l.text = u₁ ++ List.replicate (n₁ + n) '\n' := by
                rw [trimmed, ← List.replicate_append_replicate, ← List.append_assoc]
                exact congrArg (· ++ _) trimmed₁
              exact .last hw hv this
      | cons p ps ih =>
          rw [List.cons_append] at hs
          generalize hq : ps ++ [({ l with text := u }, m)] = qs at hs ih
          cases hs with
          | lexeme hw rest => exact .lexeme hw (ih rest)
          | content hw same rest => exact .content hw same (ih rest)
          | last => simp at hq

theorem Trims.cut {s : Text} (h : Trims ps qs) (hs : Cut B (ps.map Prod.fst) s) :
    Cut B (qs.map Prod.fst) s := by
  cases h with
  | same => exact hs
  | @last ps l m u n hu trimmed =>
      induction ps generalizing s with
      | nil =>
          cases hs with
          | cons hg gap _ rest =>
              cases rest with
              | nil hv =>
                  simp only [trimmed, List.append_assoc]
                  exact .cons hg gap hu (.nil ((blanks_newlines newline n).append hv))
      | cons p ps ih =>
          cases hs with
          | cons hg gap hl rest => exact .cons hg gap hl (ih rest)

theorem Laid.trim_last {x u : Text} {n : Nat} (h : Laid G B β σ ps (is ++ [x]) τ)
    (hx : x = u ++ List.replicate n '\n') :
    ∃ qs ρ, Trims ps qs ∧ Laid G B β σ qs (is ++ [u]) ρ := by
  obtain ⟨qs, rs, ρ, rfl, h₁, h₂⟩ := h.split
  have solid_left : Solid x → Solid u := by
    rintro ⟨c, hc, hgap⟩
    rw [hx, List.mem_append] at hc
    rcases hc with hc | hc
    · exact ⟨c, hc, hgap⟩
    · rw [List.eq_of_mem_replicate hc] at hgap
      exact absurd hgap (by decide)
  cases h₂ with
  | blank hb rest =>
      cases rest
      rw [hx, Text.Blanks.append_iff] at hb
      exact ⟨_, _, .same _, by simpa using h₁.snoc_blank hb.1⟩
  | @lexeme _ _ _ l m _ solid takes rest =>
      cases rest
      obtain ⟨c, hc, -⟩ := solid_left solid
      have hu : u ≠ [] := List.ne_nil_of_mem hc
      refine ⟨_, _, .last hu hx, h₁.snoc_lexeme (solid_left solid) ⟨takes.1, ?_⟩ m⟩
      intro d hd
      refine takes.2 d ?_
      rw [hx, List.head?_append_of_ne_nil _ hu]
      exact hd
  | content solid takes same rest =>
      cases rest
      rw [hx] at same
      exact ⟨_, _, .same _, h₁.snoc_content (solid_left solid) takes
        (same.drop_blanks (blanks_newlines newline n))⟩

end Trims

end EmbeddedMarkup.Html
