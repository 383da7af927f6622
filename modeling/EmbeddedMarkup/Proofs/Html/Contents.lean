import EmbeddedMarkup.Proofs.Html.Shifted
import Mathlib.Algebra.Order.BigOperators.Group.List
import Mathlib.Algebra.Order.Group.Nat

/-!
# Markup inside markup

A script is formatted as markup if its type says so. `markupContents` lists these contents, as they
are handed to the formatter for markup in markup. They do not depend on gaps
(`markupContents_bare`), and they have fewer angle brackets than the text that they are from, since
a type is an attribute of a tag that stands outside its content (`count_lt_of_mem_markupContents`).
-/

namespace EmbeddedMarkup.Html

def markupContents (style : Style.Markup) : TagView → List Token → List Text
  | _, [] => []
  | v, t :: following =>
      if t.kind = .eof then []
      else
        let contents := markupContents style (v.next style t following) following
        if v.embeds t && v.language == some .html then Embedded.dropLastBlank t.text :: contents
        else contents

variable {style : Style.Markup} {v : TagView} {x t : Text} {ts : List Token}

theorem dropLastBlank_isPrefix (t : Text) : Embedded.dropLastBlank t <+: t := by
  induction t with
  | nil => exact List.prefix_rfl
  | cons c t ih =>
      unfold Embedded.dropLastBlank
      split
      · next hblank =>
          simp only [Bool.and_eq_true, decide_eq_true_eq] at hblank
          obtain ⟨rfl, hblank⟩ := hblank
          unfold Embedded.isLastBlank at hblank
          split at hblank
          · next hd => exact hd ▸ List.nil_prefix
          · next hd => exact hd ▸ ⟨t, rfl⟩
          · cases hblank
      · exact (List.prefix_cons_inj c).mpr ih

section Bare

theorem TagView.next_bare (style : Style.Markup) (v : TagView) (t : Token)
    (following : List Token) :
    v.next style t.bare (following.map Token.bare) = v.next style t following := by
  have hlanguage : languageAt style t.bare (following.map Token.bare) =
      languageAt style t following := by
    have htag : Tag.ofToken style t.bare (following.map Token.bare) =
        Tag.ofToken style t following :=
      Tag.ofToken_bare style t following
    unfold languageAt
    rw [htag]
    dsimp only
    rw [show t.bare = t.withGap {} from rfl, Tag.contentLanguage?_bare]
    rfl
  unfold next
  rw [hlanguage]
  rfl

theorem markupContents_bare (style : Style.Markup) (v : TagView) (ts : List Token) :
    markupContents style v (ts.map Token.bare) = markupContents style v ts := by
  induction ts generalizing v with
  | nil => rfl
  | cons t following ih =>
      rw [List.map_cons, markupContents, markupContents, TagView.next_bare, ih]
      rfl

end Bare

section Attributes

theorem exists_attrName_of_typeOf? {inside : List Token} (h : Tag.typeOf? inside = some x) :
    ∃ a ∈ inside, a.kind = .attrName := by
  induction inside with
  | nil => cases h
  | cons t inside ih =>
      by_cases hname : (t.kind == .attrName && t.text == "type".toList) = true
      · exact ⟨t, List.mem_cons_self .., by simpa using (Bool.and_eq_true_iff.mp hname).1⟩
      · unfold Tag.typeOf? at h
        rw [if_neg hname] at h
        obtain ⟨a, ha, hk⟩ := ih h
        exact ⟨a, List.mem_cons_of_mem _ ha, hk⟩

/-- Without a type there is no markup in a script. -/
theorem exists_attrName_of_contentLanguage? {check : Text} {o : Token} {following : List Token}
    (h : Tag.contentLanguage? check o following = some .html) :
    ∃ a ∈ following, a.kind = .attrName := by
  obtain ⟨i, -, h⟩ := Option.bind_eq_some_iff.mp h
  dsimp only at h
  cases htype : Tag.typeOf? (following.takeWhile fun t => t.kind != .eof && t.index != i) with
  | some type =>
      obtain ⟨a, ha, hk⟩ := exists_attrName_of_typeOf? htype
      exact ⟨a, (List.takeWhile_prefix _).subset ha, hk⟩
  | none =>
      rw [htype, Option.getD_none] at h
      split at h <;> cases h

theorem TagView.exists_attrName_of_next {o : Token} {following : List Token}
    (h : (v.next style o following).language = some .html) :
    v.language = some .html ∨ ∃ a ∈ following, a.kind = .attrName := by
  have hlanguage : languageAt style o following = some .html → ∃ a ∈ following,
      a.kind = .attrName := by
    intro h
    unfold languageAt at h
    dsimp only at h
    split at h
    · cases h
    · split at h
      · exact exists_attrName_of_contentLanguage? h
      · cases h
  unfold next at h
  split at h
  · exact .inr (hlanguage h)
  · exact .inr (hlanguage h)
  · exact .inl h
  · exact .inl h

theorem exists_of_mem_markupContents (h : x ∈ markupContents style v ts) :
    (∃ t ∈ ts, t.kind = .text ∧ x = Embedded.dropLastBlank t.text) ∧
      (v.language = some .html ∨ ∃ a ∈ ts, a.kind = .attrName) := by
  induction ts generalizing v with
  | nil => cases h
  | cons t following ih =>
      have hmore : x ∈ markupContents style (v.next style t following) following →
          (∃ t' ∈ t :: following, t'.kind = .text ∧ x = Embedded.dropLastBlank t'.text) ∧
            (v.language = some .html ∨ ∃ a ∈ t :: following, a.kind = .attrName) := by
        intro h
        obtain ⟨⟨t', ht', htext⟩, hlanguage⟩ := ih h
        refine ⟨⟨t', List.mem_cons_of_mem _ ht', htext⟩, ?_⟩
        rcases hlanguage with hlanguage | ⟨a, ha, hk⟩
        · refine (TagView.exists_attrName_of_next hlanguage).imp_right ?_
          rintro ⟨a, ha, hk⟩
          exact ⟨a, List.mem_cons_of_mem _ ha, hk⟩
        · exact .inr ⟨a, List.mem_cons_of_mem _ ha, hk⟩
      unfold markupContents at h
      split at h
      · cases h
      · dsimp only at h
        split at h
        · next hembeds =>
            rcases List.mem_cons.mp h with rfl | h
            · simp only [TagView.embeds, Bool.and_eq_true, beq_iff_eq] at hembeds
              exact ⟨⟨t, List.mem_cons_self .., hembeds.1.1.1, rfl⟩, .inl hembeds.2⟩
            · exact hmore h
        · exact hmore h

end Attributes

section Brackets

variable {rs : Readers} {ctx : Context} {ls : List Lexeme}

theorem Context.mem_opened_advance {o l : Lexeme} (h : o ∈ (ctx.advance l).opened) :
    (o = l ∧ l.opens = true) ∨ o ∈ ctx.opened := by
  unfold advance at h
  split at h
  · next hopens => exact (List.mem_cons.mp h).imp_left fun ho => ⟨ho, hopens⟩
  · split at h
    · cases h
    · next o' rest hrest =>
        rw [hrest]
        split at h
        · exact .inr (List.mem_cons_of_mem _ h)
        · exact .inr h

theorem Context.exists_of_openStartsWith {c : Char} (h : ctx.openStartsWith c = true) :
    ∃ o ∈ ctx.opened, o.startsWith c = true := by
  obtain ⟨o, ho, hc⟩ := Option.any_eq_true _ _ |>.mp h
  exact ⟨o, List.mem_of_mem_head? ho, hc⟩

theorem Readers.Decided.openStartsWith_of_attrName {p : Piece} (h : Readers.Decided rs ctx t p)
    (hkind : p.kind = .attrName) : ctx.openStartsWith '<' = true := by
  have hfinds := h.finds
  rw [hkind] at hfinds
  exact (insideTag_eq_some hfinds).1

theorem Lexed.exists_opens_of_attrName (h : Lexed rs ctx t ls) {a : Lexeme} (ha : a ∈ ls)
    (hkind : a.kind = .attrName) :
    (∃ o ∈ ctx.opened, o.startsWith '<' = true) ∨ ∃ o ∈ ls, o.opens = true ∧
      o.startsWith '<' = true := by
  induction h with
  | done hg =>
      obtain rfl := List.mem_singleton.mp ha
      cases hkind
  | step next _ ih =>
      rcases List.mem_cons.mp ha with rfl | ha
      · exact .inl
          (Context.exists_of_openStartsWith
            (next.decided.openStartsWith_of_attrName (next.kind ▸ hkind)))
      · rcases ih ha with ⟨o, ho, hangle⟩ | ⟨o, ho, hopens⟩
        · rcases Context.mem_opened_advance ho with ⟨rfl, hopens⟩ | ho
          · exact .inr ⟨o, List.mem_cons_self .., hopens, hangle⟩
          · exact .inl ⟨o, ho, hangle⟩
        · exact .inr ⟨o, List.mem_cons_of_mem _ ho, hopens⟩

/-- Every character outside gaps is in a lexeme. -/
theorem Lexed.count_eq (h : Lexed rs ctx t ls) {c : Char} (hc : isGapChar c = false) :
    t.count c = (ls.flatMap Lexeme.text).count c := by
  have hgap : ∀ g : Text, (∀ d ∈ g, isGapChar d = true) → g.count c = 0 := by
    intro g hg
    refine List.count_eq_zero.mpr fun hmem => ?_
    cases hc.symm.trans (hg c hmem)
  induction h with
  | done hg => simpa using hgap _ hg
  | step next _ ih =>
      rw [List.flatMap_cons, List.count_append, List.count_append, List.count_append,
        hgap _ next.gap_chars, ih, Nat.zero_add]

/-- Content has fewer angle brackets than the text that it is from. -/
theorem count_lt_of_mem_markupContents (hts : Token.ofText (.ofStyle style) t = .ok ts)
    (hx : x ∈ markupContents style {} ts) : x.count '<' < t.count '<' := by
  classical
  have lexed := Token.ofText_eq_ok hts
  obtain ⟨⟨u, hu, htext, rfl⟩, hlanguage | ⟨a, ha, hattr⟩⟩ := exists_of_mem_markupContents hx
  · cases hlanguage
  · obtain ⟨o, ho, -⟩ | ⟨o, ho, hopens, hangle⟩ :=
      lexed.exists_opens_of_attrName (List.mem_map_of_mem ha) hattr
    · cases ho
    · let f : Lexeme → Nat := fun l => l.text.count '<'
      have hne : o ≠ u.toLexeme := by
        rintro rfl
        simp [Lexeme.opens, htext] at hopens
      have hone : 0 < f o := by
        obtain ⟨r, hr⟩ := List.head?_eq_some_iff.mp (eq_of_beq hangle)
        exact List.count_pos_iff.mpr (hr ▸ List.mem_cons_self ..)
      have hrest : f o ≤ (((ts.map Token.toLexeme).erase u.toLexeme).map f).sum :=
        List.single_le_sum (by simp) _ (List.mem_map_of_mem ((List.mem_erase_of_ne hne).mpr ho))
      calc (Embedded.dropLastBlank u.text).count '<'
        _ ≤ f u.toLexeme := (dropLastBlank_isPrefix u.text).sublist.count_le '<'
        _ < f u.toLexeme + f o := Nat.lt_add_of_pos_right hone
        _ ≤ f u.toLexeme + (((ts.map Token.toLexeme).erase u.toLexeme).map f).sum :=
          Nat.add_le_add_left hrest _
        _ = ((ts.map Token.toLexeme).map f).sum := List.sum_map_erase f (List.mem_map_of_mem hu)
        _ = t.count '<' := by rw [lexed.count_eq rfl, List.count_flatMap]; rfl

end Brackets

end EmbeddedMarkup.Html
