import EmbeddedMarkup.Html.Format
import EmbeddedMarkup.Proofs.Html.Sheet

/-!
# What the tokens decide about their layout

Which tokens are content in another language depends on the tokens alone: on the last tag before
them, whether it is complete, and which language its content has. `TagView` is that much of the
formatter's memory, and `marked` goes through the tokens with it and marks the content.

`Bonded` states what a token has to satisfy so that writing it tears no bond to the token before and
joins no pair that was apart. Some tokens are always set apart from what comes before, some never
are; for these the bonds must not care.
-/

namespace EmbeddedMarkup

open Text (Blanks Bonds)

namespace Html

/-- What is remembered of the last tag. -/
structure TagView where
  opening : Text := []
  complete : Bool := true
  language : Option Language := none

namespace TagView

/-- The language of the content after a tag. -/
def languageAt (style : Style.Markup) (t : Token) (following : List Token) : Option Language :=
  let tag := Tag.ofToken style t following
  let isScript := tag.name == "script".toList || tag.name == "style".toList
  if tag.isEmpty || tag.isEnd then none
  else if isScript && !(tag.isUnformatted || tag.isContentUnformatted) then
    Tag.contentLanguage? tag.check t following
  else none

/-- What is remembered after a token. -/
def next (style : Style.Markup) (v : TagView) (t : Token) (following : List Token) : TagView :=
  match t.kind with
  | .tagOpen | .comment =>
      { opening := t.text
        complete := t.kind == .comment
        language := languageAt style t following }
  | .tagClose => { v with complete := true }
  | _ => v

def embeds (v : TagView) (t : Token) : Bool := t.kind == .text && v.complete && v.language.isSome

/-- A tag of which this is remembered. -/
structure Agrees (v : TagView) (tag : Tag) : Prop where
  text : tag.text = v.opening
  complete : tag.isComplete = v.complete
  language : tag.language = v.language

end TagView

/-- The tokens up to the end of the text, each with whether it is content in another language. -/
def marked (style : Style.Markup) : TagView → List Token → List (Lexeme × Bool)
  | _, [] => []
  | v, t :: following =>
      if t.kind = .eof then []
      else (t.toLexeme, v.embeds t) :: marked style (v.next style t following) following

/-- A bond between the character `q` and a lexeme right after it. -/
def Fused (β : Bonds) (q : Option Char) (l : Lexeme) : Prop :=
  ∃ c d, q = some c ∧ l.text.head? = some d ∧ β.keeps c d ∧ l.gap.isPresent = false

/-- A pair that stays apart, of the character `q` and a lexeme after a gap. -/
def Parted (β : Bonds) (q : Option Char) (l : Lexeme) : Prop :=
  ∃ c d, q = some c ∧ l.text.head? = some d ∧ β.parts c d ∧ l.gap.isPresent = true

/-- What a token after the character `q` must satisfy to be written without harm to the bonds;
`content` says whether the token before it is content in another language. -/
structure Bonded (β : Bonds) (style : Style.Markup) (v : TagView) (before : Kind) (q : Option Char)
    (content : Bool) (t : Token) : Prop where
  /-- The tokens that are set apart are not bound to what comes before. -/
  fused : content = true ∨ t.kind = .attrName ∨ (t.kind = .tagClose ∧ v.opening.head? = some '<') ∨
    v.embeds t = true → ¬Fused β q t.toLexeme
  /-- The tokens whose gap may be dropped need not stay apart. -/
  parted : t.kind = .tagOpen ∨ t.kind = .comment ∨ t.kind = .equals ∨ t.kind = .controlFlowClose ∨
    (t.kind = .value ∧ before = .equals) ∨ (t.kind = .tagClose ∧ v.opening.head? = some '<') ∨
    style.maxPreserveNewlines < 0 → ¬Parted β q t.toLexeme
  /-- Nothing is bound to the opening of a tag. -/
  opening : t.kind = .tagOpen ∨ t.kind = .comment →
    ∀ d, t.text.head? = some d → ∀ c, ¬β.keeps c d
  /-- The end of a tag is bound to nothing. -/
  ending : t.kind = .tagClose → ∀ c, t.text.getLast? = some c → ∀ d, ¬β.keeps c d

/-- All tokens from here on can be written without harm to the bonds. -/
def AllBonded (β : Bonds) (style : Style.Markup) :
    TagView → Kind → Option Char → Bool → List Token → Prop
  | _, _, _, _, [] => True
  | v, before, q, content, t :: following =>
      Bonded β style v before q content t ∧
        AllBonded β style (v.next style t following) t.kind t.text.getLast? (v.embeds t) following

theorem allBonded_free (style : Style.Markup) (v : TagView) (before : Kind) (q : Option Char)
    (content : Bool) (ts : List Token) : AllBonded .free style v before q content ts := by
  induction ts generalizing v before q content with
  | nil => trivial
  | cons t ts ih =>
      refine ⟨{ fused := ?_, parted := ?_, opening := ?_, ending := ?_ }, ih ..⟩
      · rintro - ⟨c, d, -, -, hk, -⟩
        exact hk
      · rintro - ⟨c, d, -, -, hp, -⟩
        exact hp
      · exact fun _ _ _ _ => id
      · exact fun _ _ _ _ => id

namespace Seam

variable {β : Bonds} {σ σ' : Seam} {l : Lexeme}

/-- A lexeme may follow wherever the blanks before it do no harm. -/
theorem takes_of (even : σ.apart = σ.closed) (le : σ.Le σ')
    (fused : σ'.apart = true → ¬Fused β σ.last l)
    (parted : σ'.apart = false → ¬Parted β σ.last l) : σ'.Takes β l := by
  refine ⟨fun hc => le.apart ?_, fun d hd c hc => ⟨fun hk hgap => ?_, fun hp ha => ?_⟩⟩
  · rw [even, ← le.closed]
    exact hc
  · rw [le.last] at hc
    cases ha : σ'.apart with
    | false => rfl
    | true => exact absurd ⟨c, d, hc, hd, hk, hgap⟩ (fused ha)
  · rw [le.last] at hc
    cases hgap : l.gap.isPresent with
    | false => rfl
    | true => exact absurd ⟨c, d, hc, hd, hp, hgap⟩ (parted ha)

theorem not_parted_of_open (le : σ.Le σ') (ho : σ'.Open) (ha : σ'.apart = false) :
    ¬Parted β σ.last l := by
  rintro ⟨c, d, hc, -⟩
  rcases ho with h | rfl
  · simp [h] at ha
  · rw [← le.last] at hc
    simp at hc

/-- Blanks are there exactly if there was a gap, as far as the bonds care. -/
structure Gapped (β : Bonds) (σ σ' : Seam) (l : Lexeme) : Prop where
  le : σ.Le σ'
  present : l.gap.isPresent = true → σ'.Open ∨ ¬Parted β σ.last l
  absent : l.gap.isPresent = false → σ' = σ

theorem Gapped.takes (even : σ.apart = σ.closed) (g : Gapped β σ σ' l)
    (content : σ.closed = true → ¬Fused β σ.last l) : σ'.Takes β l := by
  refine takes_of even g.le (fun ha => ?_) fun ha => ?_
  · cases hgap : l.gap.isPresent with
    | true =>
        rintro ⟨c, d, -, -, -, h⟩
        simp [hgap] at h
    | false =>
        rw [g.absent hgap, even] at ha
        exact content ha
  · cases hgap : l.gap.isPresent with
    | true => exact (g.present hgap).elim (not_parted_of_open g.le · ha) id
    | false =>
        rintro ⟨c, d, -, -, -, h⟩
        simp [hgap] at h

end Seam

end Html

end EmbeddedMarkup
