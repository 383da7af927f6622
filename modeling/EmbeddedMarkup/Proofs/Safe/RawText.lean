import EmbeddedMarkup.Html.Lexeme
import EmbeddedMarkup.Proofs.Safe.Unescape
import EmbeddedMarkup.Proofs.Text.Case
import EmbeddedMarkup.Proofs.Text.Reading
import EmbeddedMarkup.Proofs.Text.Replacing
import Mathlib.Data.Bool.AllAny
import Mathlib.Data.List.TakeWhile

/-!
# Scripts and style sheets

The content of a script or a style sheet is raw text: it ends where its end tag begins, and nothing
in it is escaped. A script is kept from ending early by a backslash in every beginning of an end
tag, which leaves none (`script_stays_open`). In a style sheet only one spelling of the end tag is
taken apart, so those in capitals or with a gap before the bracket are left
(`stylesheet_stays_open_iff`).
-/

namespace EmbeddedMarkup.Safe

open Html (isGapChar)
open Html.Readers (endTag)
open Text (replaceAll)

section Script

/-- A text with a backslash in each beginning of an end tag. -/
def slashed (t : Text) : Text := replaceAll "</".toList "<\\/".toList t

/-- A text without the backslashes in beginnings of end tags. -/
def unslashed (t : Text) : Text := replaceAll "<\\/".toList "</".toList t

theorem slashed_hit (t : Text) : slashed ('<' :: '/' :: t) = '<' :: '\\' :: '/' :: slashed t :=
  Text.replaceAll_append_left (show ['<', '/'] ≠ [] by decide) t

theorem slashed_cons {c : Char} {t : Text} (h : ¬['<', '/'] <+: c :: t) :
    slashed (c :: t) = c :: slashed t :=
  Text.replaceAll_cons (Text.isPrefixOf_eq_false_iff.mpr h)

theorem starts_slashed_iff {w : Text} (h : '<' ∉ w) (t : Text) : w <+: slashed t ↔ w <+: t :=
  Text.starts_replaceAll_iff h t

theorem unslashed_hit (t : Text) :
    unslashed ('<' :: '\\' :: '/' :: t) = '<' :: '/' :: unslashed t :=
  Text.replaceAll_append_left (show ['<', '\\', '/'] ≠ [] by decide) t

theorem unslashed_cons {c : Char} {t : Text} (h : ¬['<', '\\', '/'] <+: c :: t) :
    unslashed (c :: t) = c :: unslashed t :=
  Text.replaceAll_cons (Text.isPrefixOf_eq_false_iff.mpr h)

theorem not_infix_slashed (t : Text) : ¬['<', '/'] <:+: slashed t := by
  induction t using Text.replaceAll_induction (show ['<', '/'] ≠ [] by decide) with
  | nil => simp [slashed, replaceAll, Text.replaceFrom]
  | hit t ih => simp [slashed_hit, List.infix_cons_iff, ih]
  | miss c t h ih =>
      have hmiss : ¬['<', '/'] <+: c :: t := Text.isPrefixOf_eq_false_iff.mp h
      rw [slashed_cons hmiss, List.infix_cons_iff, not_or]
      refine ⟨fun hstarts => hmiss ?_, ih⟩
      rwa [List.cons_prefix_cons, starts_slashed_iff (by decide),
        ← List.cons_prefix_cons] at hstarts

theorem unslashed_slashed (t : Text) : unslashed (slashed t) = unslashed t := by
  induction t using Text.replaceAll_induction (show ['<', '\\', '/'] ≠ [] by decide) with
  | nil => rfl
  | hit t ih =>
      have hkept : slashed ('<' :: '\\' :: '/' :: t) = '<' :: '\\' :: '/' :: slashed t := by
        rw [slashed_cons (by simp), slashed_cons (by simp), slashed_cons (by simp)]
      calc unslashed (slashed ('<' :: '\\' :: '/' :: t))
        _ = '<' :: '/' :: unslashed (slashed t) := by rw [hkept, unslashed_hit]
        _ = unslashed ('<' :: '\\' :: '/' :: t) := by rw [ih, unslashed_hit]
  | miss c t h ih =>
      have hmiss : ¬['<', '\\', '/'] <+: c :: t := Text.isPrefixOf_eq_false_iff.mp h
      rw [unslashed_cons hmiss, ← ih]
      by_cases hhit : ['<', '/'] <+: c :: t
      · obtain ⟨r, hr⟩ := hhit
        obtain ⟨rfl, rfl⟩ : '<' = c ∧ '/' :: r = t := List.cons.inj hr
        rw [slashed_hit, unslashed_hit, slashed_cons (by simp), unslashed_cons (by simp)]
      · have hkept : ¬['<', '\\', '/'] <+: c :: slashed t := by
          rwa [List.cons_prefix_cons, starts_slashed_iff (by decide), ← List.cons_prefix_cons]
        rw [slashed_cons hhit, unslashed_cons hkept]

/-- A script holds no beginning of an end tag. What is taken for a script a second time stays as it
is, and without the backslashes before slashes it is what the text without these is. -/
theorem script_stays_open {v : Value} {s : Text} (h : v.chars? = some s) :
    ∃ t, Function.script.call [v] [] = .ok (.safe t) ∧ ¬"</".toList <:+: t ∧
      Function.script.call [.safe t] [] = .ok (.safe t) ∧
      replaceAll "<\\/".toList "</".toList t = replaceAll "<\\/".toList "</".toList s := by
  have hcall : Function.script.call [v] [] = .ok (.safe (slashed s)) := by
    cases v with
    | str u | safe u =>
        obtain rfl := Option.some.inj h
        rfl
    | _ => cases h
  refine ⟨slashed s, hcall, not_infix_slashed s, ?_, unslashed_slashed s⟩
  exact congrArg (fun t => Except.ok (Value.safe t)) (Text.replaceAll_eq_self (not_infix_slashed s))

theorem script_stays_open_nested :
    let s := "<</<\\/</".toList
    (Value.str s).chars? = some s ∧ ∃ t, Function.script.call [.str s] [] = .ok (.safe t) ∧
      ¬"</".toList <:+: t ∧ Function.script.call [.safe t] [] = .ok (.safe t) ∧
      replaceAll "<\\/".toList "</".toList t = replaceAll "<\\/".toList "</".toList s := by
  intro s
  exact ⟨rfl, script_stays_open rfl⟩

end Script

section Stylesheet

def styleName : Text := "style".toList

/-- The text is an end tag of the named element, in any case and with any gap before its bracket. -/
def IsEndTag (name tag : Text) : Prop :=
  ∃ letters gap, tag = '<' :: '/' :: (letters ++ gap ++ ['>']) ∧ letters.length = name.length ∧
    Text.startsWithLetters name letters = true ∧ ∀ c ∈ gap, isGapChar c = true

theorem endTag_eq_some_iff {name t : Text} {n : Nat} :
    endTag name t = some n ↔ ∃ tag rest, t = tag ++ rest ∧ IsEndTag name tag ∧ n = tag.length := by
  constructor
  · intro h
    unfold endTag at h
    split at h
    · cases h
    · next r hr =>
        obtain rfl := Text.dropLiteral?_eq_some_iff.mp hr
        split at h
        · next hletters =>
            have hlength : (r.take name.length).length = name.length :=
              List.length_take_of_le (Text.length_le_of_startsWithLetters hletters)
            rw [← List.take_append_drop name.length r,
              Text.startsWithLetters_append hlength] at hletters
            have hsplit :=
              List.takeWhile_append_dropWhile (p := isGapChar) (l := r.drop name.length)
            have hgap : ∀ c ∈ (r.drop name.length).takeWhile isGapChar, isGapChar c = true :=
              fun c hc => List.mem_takeWhile_imp hc
            simp only [← List.drop_drop] at h
            generalize (r.drop name.length).takeWhile isGapChar = gap at h hsplit hgap
            rw [← hsplit, List.drop_left] at h
            split at h
            · next hbracket =>
                obtain ⟨rest, hrest⟩ := List.head?_eq_some_iff.mp hbracket
                refine ⟨_, rest, ?_, ⟨r.take name.length, gap, rfl, hlength, hletters, hgap⟩, ?_⟩
                · rw [hrest] at hsplit
                  conv_lhs => rw [← List.take_append_drop name.length r, ← hsplit]
                  simp
                · rw [← Option.some.inj h]
                  simp only [List.length_cons, List.length_append, hlength, List.length_nil]
                  omega
            · cases h
        · cases h
  · rintro ⟨_, rest, rfl, ⟨letters, gap, rfl, hlength, hletters, hgap⟩, rfl⟩
    have hdrop : (letters ++ (gap ++ '>' :: rest)).drop name.length = gap ++ '>' :: rest := by
      rw [← hlength, List.drop_left]
    have htake : (gap ++ '>' :: rest).takeWhile isGapChar = gap :=
      Text.takeWhile_append_cons hgap (by decide) rest
    have hbracket : (letters ++ (gap ++ '>' :: rest)).drop (name.length + gap.length) =
        '>' :: rest := by
      rw [← List.drop_drop, hdrop, List.drop_left]
    have hstarts : Text.startsWithLetters name (letters ++ (gap ++ '>' :: rest)) = true := by
      rwa [Text.startsWithLetters_append hlength]
    simp only [endTag, List.cons_append, List.append_assoc, List.nil_append, Text.dropLiteral?,
      if_true, hstarts, hdrop, htake, hbracket, List.head?_cons, List.length_cons,
      List.length_append, List.length_nil, hlength]
    congr 1
    omega

theorem forall_endTag_iff {name t : Text} {P : Text → Prop} :
    (∀ before after n, t = before ++ after → endTag name after = some n → P (after.take n)) ↔
      ∀ tag, IsEndTag name tag → tag <:+: t → P tag := by
  constructor
  · rintro h tag htag ⟨before, rest, rfl⟩
    have hread : endTag name (tag ++ rest) = some tag.length :=
      endTag_eq_some_iff.mpr ⟨tag, rest, rfl, htag, rfl⟩
    have hP := h before (tag ++ rest) tag.length (by simp) hread
    rwa [List.take_left] at hP
  · rintro h before after n rfl hread
    obtain ⟨tag, rest, rfl, htag, rfl⟩ := endTag_eq_some_iff.mp hread
    rw [List.take_left]
    exact h tag htag ⟨before, rest, by simp⟩

theorem search_endTag_eq_none_iff {name t : Text} :
    (endTag name).search t = none ↔ ∀ tag, IsEndTag name tag → ¬tag <:+: t := by
  rw [Recognizer.search_eq_none_iff]
  refine Iff.trans ?_ (forall_endTag_iff (P := fun _ => False))
  simp only [Option.eq_none_iff_forall_ne_some, ne_eq]
  exact ⟨fun h before after n heq => h before after heq n,
    fun h before after heq n => h before after n heq⟩

theorem IsEndTag.exists_eq_cons {tag : Text} (h : IsEndTag styleName tag) :
    ∃ w, tag = '<' :: '/' :: w ∧ '<' ∉ '/' :: w := by
  have hname : ∀ c ∈ styleName, Text.sameLetter c '<' = false :=
    List.all_iff_forall_prop.mp (by decide)
  obtain ⟨letters, gap, rfl, hlength, hletters, hgap⟩ := h
  refine ⟨_, rfl, fun hmem => ?_⟩
  simp only [List.mem_cons, List.mem_append, List.not_mem_nil, or_false] at hmem
  rcases hmem with hmem | (hmem | hmem) | hmem
  · exact absurd hmem (by decide)
  · obtain ⟨c, hc, hsame⟩ := Text.exists_sameLetter hlength hletters hmem
    simp [hname c hc] at hsame
  · exact absurd (hgap _ hmem) (by decide)
  · exact absurd hmem (by decide)

/-- A text with a backslash in each end tag of one spelling. -/
def disarmed (t : Text) : Text := replaceAll "</style>".toList "<\\/style>".toList t

theorem infix_append_iff {c : Char} {w x : Text} (hx : c ∉ x) (t : Text) :
    c :: w <:+: x ++ t ↔ c :: w <:+: t := by
  induction x with
  | nil => rfl
  | cons d x ih =>
      obtain ⟨hcd, hx⟩ := List.ne_and_not_mem_of_not_mem_cons hx
      rw [List.cons_append, List.infix_cons_iff, ih hx, List.cons_prefix_cons]
      simp [hcd]

theorem IsEndTag.eq_of_starts {tag t : Text} (h : IsEndTag styleName tag)
    (ht : tag <+: "</style>".toList ++ t) :
    tag = "</style>".toList := by
  obtain ⟨rest, hrest⟩ := ht
  have hread : endTag styleName ("</style>".toList ++ t) = some 8 := rfl
  have htag : endTag styleName ("</style>".toList ++ t) = some tag.length :=
    endTag_eq_some_iff.mpr ⟨tag, rest, hrest.symm, h, rfl⟩
  have hlength : tag.length = "</style>".toList.length := Option.some.inj (htag.symm.trans hread)
  exact (List.append_inj hrest hlength).1

/-- The end tags of a style sheet are those of its text that are spelled otherwise. -/
theorem infix_disarmed_iff {tag : Text} (h : IsEndTag styleName tag) (t : Text) :
    tag <:+: disarmed t ↔ tag <:+: t ∧ tag ≠ "</style>".toList := by
  obtain ⟨w, htag, hw⟩ := h.exists_eq_cons
  induction t using Text.replaceAll_induction (show "</style>".toList ≠ [] by decide) with
  | nil => simp [htag, disarmed, replaceAll, Text.replaceFrom]
  | hit t ih =>
      have hdisarmed : disarmed ("</style>".toList ++ t) = '<' ::
          ("\\/style>".toList ++ disarmed t) :=
        Text.replaceAll_append_left (by decide) t
      have hhit : "</style>".toList ++ t = '<' :: ("/style>".toList ++ t) := rfl
      have hopen : ¬tag <+: '<' :: ("\\/style>".toList ++ disarmed t) := by
        simp [htag, List.cons_prefix_cons]
      have hbehind : tag <:+: "\\/style>".toList ++ disarmed t ↔ tag <:+: disarmed t :=
        htag ▸ infix_append_iff (by decide) _
      have hbehind' : tag <:+: "/style>".toList ++ t ↔ tag <:+: t :=
        htag ▸ infix_append_iff (by decide) _
      have heq : tag <+: "</style>".toList ++ t → tag = "</style>".toList := h.eq_of_starts
      rw [hhit] at heq
      rw [hdisarmed, hhit, List.infix_cons_iff, List.infix_cons_iff, hbehind, hbehind', ih,
        or_iff_right hopen, or_and_right]
      exact (or_iff_right fun hstarts => hstarts.2 (heq hstarts.1)).symm
  | miss c t hmiss ih =>
      have hdisarmed : disarmed (c :: t) = c :: disarmed t := Text.replaceAll_cons hmiss
      have hstarts : tag <+: c :: disarmed t ↔ tag <+: c :: t := by
        rw [htag, List.cons_prefix_cons, List.cons_prefix_cons]
        exact and_congr_right fun _ => Text.starts_replaceAll_iff hw t
      have hne : tag <+: c :: t → tag ≠ "</style>".toList := by
        rintro hpre rfl
        exact Text.isPrefixOf_eq_false_iff.mp hmiss hpre
      rw [hdisarmed, List.infix_cons_iff, List.infix_cons_iff, hstarts, ih, or_and_right,
        and_iff_left_of_imp hne]

/-- A style sheet has no end tag that would close its element just if every end tag in its text is
spelled in small letters and without a gap. -/
theorem stylesheet_stays_open_iff {v : Value} {s : Text} (h : v.chars? = some s) :
    ∃ t, Function.stylesheet.call [v] [] = .ok (.safe t) ∧
      ((endTag "style".toList).search t = none ↔
        ∀ before after n, s = before ++ after → endTag "style".toList after = some n →
          after.take n = "</style>".toList) := by
  have hcall : Function.stylesheet.call [v] [] = .ok (.safe (disarmed s)) := by
    cases v with
    | str u | safe u =>
        obtain rfl := Option.some.inj h
        rfl
    | _ => cases h
  refine ⟨disarmed s, hcall, ?_⟩
  rw [search_endTag_eq_none_iff, forall_endTag_iff (P := (· = "</style>".toList))]
  refine forall₂_congr fun tag htag => ?_
  rw [infix_disarmed_iff htag, not_and_not_right]

theorem stylesheet_stays_open_iff_twice :
    let s := "a</style>b</style>".toList
    (Value.str s).chars? = some s ∧ ∃ t, Function.stylesheet.call [.str s] [] = .ok (.safe t) ∧
      ((endTag "style".toList).search t = none ↔
        ∀ before after n, s = before ++ after → endTag "style".toList after = some n →
          after.take n = "</style>".toList) := by
  intro s
  exact ⟨rfl, stylesheet_stays_open_iff rfl⟩

/-- An end tag in capitals goes through, and so does one with a space before its bracket. -/
theorem stylesheet_capitals :
    Function.stylesheet.call [.str "</STYLE>".toList] [] = .ok (.safe "</STYLE>".toList) ∧
      (endTag "style".toList).search "</STYLE>".toList = some (0, 8) ∧
      Function.stylesheet.call [.str "</style >".toList] [] = .ok (.safe "</style >".toList) ∧
      (endTag "style".toList).search "</style >".toList = some (0, 9) := by
  exact ⟨rfl, by decide, rfl, by decide⟩

end Stylesheet

end EmbeddedMarkup.Safe
