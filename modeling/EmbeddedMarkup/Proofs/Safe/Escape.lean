import EmbeddedMarkup.Decimal.Shortest
import EmbeddedMarkup.Safe.Escape
import Mathlib.Data.Bool.AllAny
import Mathlib.Data.List.DropRight
import Mathlib.Tactic.SplitIfs
import Mathlib.Tactic.Tauto

/-!
# Escaped text

Five characters are special in markup. A text without them is *plain*: it is its own escaped form
(`escape_eq_self_iff`), and numbers are written in plain text. Escaped text is without markup
(`NoMarkup`) and without double quotes.

Both properties pass to texts that are joined from pieces. They do not pass to arbitrary parts of a
text, since a cut may go through a reference. Taking white space from the ends is no such cut: it
commutes with escaping, because no special character is a blank and no reference begins or ends with
one.
-/

namespace EmbeddedMarkup

theorem Text.join_induction {P : Text → Prop} (nil : P [])
    (append : ∀ {s t}, P s → P t → P (s ++ t)) {sep : Text} (hsep : P sep) {ts : List Text}
    (hts : ∀ t ∈ ts, P t) : P (Text.join sep ts) := by
  unfold Text.join
  induction ts with
  | nil => exact nil
  | cons t ts ih =>
      have ht : P t := hts t (List.mem_cons_self ..)
      have ih := ih fun u hu => hts u (List.mem_cons_of_mem _ hu)
      cases ts with
      | nil => simpa using ht
      | cons u ts =>
          rw [List.intercalate_cons_cons]
          exact append (append ht hsep) ih

namespace Safe

/-- The characters with a meaning in markup. -/
def special : List Char := ['&', '<', '>', '"', '\'']

def Plain (t : Text) : Prop := ∀ c ∈ t, c ∉ special

instance (t : Text) : Decidable (Plain t) := List.decidableBAll _ t

/-- The references that special characters are written as. -/
def references : List Text := Text.lits ["&amp;", "&lt;", "&gt;", "&quot;", "&#39;"]

/-- A text without tags and single quotes, in which every ampersand begins one of the references. -/
structure NoMarkup (t : Text) : Prop where
  delimiters : ∀ c ∈ t, c ≠ '<' ∧ c ≠ '>' ∧ c ≠ '\''
  /-- Ampersands begin references. -/
  ampersands : ∀ before after, t = before ++ '&' :: after → ∃ r ∈ references, r <+: '&' :: after

theorem escapeChar_of_not_special {c : Char} (h : c ∉ special) : escapeChar c = [c] := by
  simp only [special, List.mem_cons, List.not_mem_nil, or_false, not_or] at h
  simp [escapeChar, h]

theorem escapeChar_mem_references : ∀ c ∈ special, escapeChar c ∈ references :=
  List.all_iff_forall_prop.mp (by decide)

/-- A reference has one ampersand, at its start, and otherwise no special character. -/
theorem references_shape :
    ∀ r ∈ references, r.head? = some '&' ∧ r.getLast? = some ';' ∧ Plain r.tail := by
  decide

theorem length_le_length_escape (t : Text) : t.length ≤ (escape t).length := by
  induction t with
  | nil => simp
  | cons c t ih =>
      have hc : 1 ≤ (escapeChar c).length := by
        unfold escapeChar
        split_ifs <;> simp
      rw [escape_cons, List.length_append, List.length_cons]
      omega

/-- A text is its own escaped form just if it is plain. -/
theorem escape_eq_self_iff {t : Text} : escape t = t ↔ Plain t := by
  have hlong : ∀ c ∈ special, 1 < (escapeChar c).length :=
    List.all_iff_forall_prop.mp (by decide)
  induction t with
  | nil => simp [Plain]
  | cons c t ih =>
      have hplain : Plain (c :: t) ↔ c ∉ special ∧ Plain t := List.forall_mem_cons
      by_cases hc : c ∈ special
      · have hne : escape (c :: t) ≠ c :: t := by
          intro h
          have hlength := congrArg List.length h
          have hle := length_le_length_escape t
          have hlt := hlong c hc
          simp only [escape_cons, List.length_append, List.length_cons] at hlength
          omega
        exact iff_of_false hne fun h => (hplain.mp h).1 hc
      · simp [escapeChar_of_not_special hc, hplain, hc, ih]

namespace Plain

theorem append {s t : Text} (hs : Plain s) (ht : Plain t) : Plain (s ++ t) := by
  intro c hc
  rcases List.mem_append.mp hc with hc | hc
  · exact hs c hc
  · exact ht c hc

theorem cons {c : Char} {t : Text} (hc : c ∉ special) (ht : Plain t) : Plain (c :: t) :=
  append (s := [c]) (by simpa [Plain] using hc) ht

theorem of_subset {s t : Text} (ht : Plain t) (h : s ⊆ t) : Plain s := fun c hc => ht c (h hc)

end Plain

namespace NoMarkup

theorem of_plain {t : Text} (h : Plain t) : NoMarkup t where
  delimiters c hc := by
    have hspecial := h c hc
    simp only [special, List.mem_cons, List.not_mem_nil, or_false, not_or] at hspecial
    tauto
  ampersands before after heq := by
    have hmem : '&' ∈ t := by simp [heq]
    exact absurd (by decide) (h '&' hmem)

theorem append {s t : Text} (hs : NoMarkup s) (ht : NoMarkup t) : NoMarkup (s ++ t) where
  delimiters c hc := by
    rcases List.mem_append.mp hc with hc | hc
    · exact hs.delimiters c hc
    · exact ht.delimiters c hc
  ampersands before after heq := by
    rcases List.append_eq_append_iff.mp heq with ⟨w, rfl, hw⟩ | ⟨w, rfl, hw⟩
    · exact ht.ampersands w after hw
    · -- The reference lies in the first text, or the ampersand is the first of the second.
      cases w with
      | nil => exact ht.ampersands [] after (by simpa using hw.symm)
      | cons d w =>
          obtain ⟨rfl, rfl⟩ : '&' = d ∧ after = w ++ t := by simpa using hw
          obtain ⟨r, hr, hpre⟩ := hs.ampersands before w rfl
          exact ⟨r, hr, hpre.trans (List.prefix_append ('&' :: w) t)⟩

theorem of_reference {r : Text} (h : r ∈ references) : NoMarkup r := by
  obtain ⟨hhead, -, hplain⟩ := references_shape r h
  cases r with
  | nil => cases hhead
  | cons c w =>
      obtain rfl : c = '&' := Option.some.inj hhead
      exact {
        delimiters := by
          intro d hd
          rcases List.mem_cons.mp hd with rfl | hd
          · decide
          · exact (of_plain hplain).delimiters d hd
        ampersands := by
          intro before after heq
          cases before with
          | nil => exact ⟨_, h, by rw [heq]; exact List.prefix_rfl⟩
          | cons d before =>
              have hmem : '&' ∈ w := by
                rw [(List.cons.inj heq).2]
                simp
              exact absurd (by decide) (hplain '&' hmem) }

end NoMarkup

theorem noMarkup_escape (s : Text) : NoMarkup (escape s) := by
  induction s with
  | nil => exact .of_plain (by simp [Plain])
  | cons c s ih =>
      rw [escape_cons]
      refine .append ?_ ih
      by_cases hc : c ∈ special
      · exact .of_reference (escapeChar_mem_references c hc)
      · rw [escapeChar_of_not_special hc]
        exact .of_plain (by simpa [Plain] using hc)

theorem quote_not_mem_escape (s : Text) : '"' ∉ escape s := by
  have hspecial : ∀ c ∈ special, '"' ∉ escapeChar c := List.all_iff_forall_prop.mp (by decide)
  intro h
  obtain ⟨c, -, hc⟩ := List.mem_flatMap.mp h
  by_cases hs : c ∈ special
  · exact hspecial c hs hc
  · rw [escapeChar_of_not_special hs, List.mem_singleton] at hc
    exact hs (hc ▸ by decide)

section Blanks

open Text (isBlank strip stripLeft stripRight)

theorem not_special_of_isBlank {c : Char} (h : isBlank c = true) : c ∉ special := by
  have hspecial : ∀ d ∈ special, isBlank d = false := List.all_iff_forall_prop.mp (by decide)
  intro hc
  simp [hspecial c hc] at h

/-- The form of a character that is no blank neither begins nor ends with one. -/
theorem escapeChar_of_not_isBlank {c : Char} (h : isBlank c = false) :
    (∃ d w, escapeChar c = d :: w ∧ isBlank d = false) ∧
      ∃ w d, escapeChar c = w ++ [d] ∧ isBlank d = false := by
  by_cases hc : c ∈ special
  · obtain ⟨hhead, hlast, -⟩ := references_shape _ (escapeChar_mem_references c hc)
    obtain ⟨w, hw⟩ := List.head?_eq_some_iff.mp hhead
    obtain ⟨u, hu⟩ := List.getLast?_eq_some_iff.mp hlast
    exact ⟨⟨'&', w, hw, by decide⟩, u, ';', hu, by decide⟩
  · rw [escapeChar_of_not_special hc]
    exact ⟨⟨c, [], rfl, h⟩, [], c, rfl, h⟩

theorem stripLeft_escape (s : Text) : stripLeft (escape s) = escape (stripLeft s) := by
  unfold stripLeft
  induction s with
  | nil => rfl
  | cons c s ih =>
      by_cases hc : isBlank c = true
      · rw [escape_cons, escapeChar_of_not_special (not_special_of_isBlank hc),
          List.singleton_append, List.dropWhile_cons_of_pos hc, List.dropWhile_cons_of_pos hc, ih]
      · obtain ⟨⟨d, w, hw, hd⟩, -⟩ := escapeChar_of_not_isBlank (by simpa using hc)
        rw [List.dropWhile_cons_of_neg hc, escape_cons, hw, List.cons_append,
          List.dropWhile_cons_of_neg (by simp [hd])]

theorem stripRight_escape (s : Text) : stripRight (escape s) = escape (stripRight s) := by
  have heq (t : Text) : stripRight t = t.rdropWhile isBlank := rfl
  simp only [heq]
  induction s using List.reverseRecOn with
  | nil => rfl
  | append_singleton s c ih =>
      have hsingle : escape [c] = escapeChar c := by simp
      by_cases hc : isBlank c = true
      · rw [escape_append, hsingle, escapeChar_of_not_special (not_special_of_isBlank hc),
          List.rdropWhile_concat_pos _ _ _ hc, List.rdropWhile_concat_pos _ _ _ hc, ih]
      · obtain ⟨-, w, d, hw, hd⟩ := escapeChar_of_not_isBlank (by simpa using hc)
        rw [List.rdropWhile_concat_neg _ _ _ hc, escape_append, hsingle, hw, ← List.append_assoc,
          List.rdropWhile_concat_neg _ _ _ (by simp [hd])]

theorem strip_escape (s : Text) : strip (escape s) = escape (strip s) := by
  rw [strip, stripLeft_escape, stripRight_escape, strip]

end Blanks

section Numbers

theorem not_special_of_isDigit {c : Char} (h : c.isDigit = true) : c ∉ special := by
  have hspecial : ∀ d ∈ special, d.isDigit = false := List.all_iff_forall_prop.mp (by decide)
  intro hc
  simp [hspecial c hc] at h

theorem plain_ofNat (n : Nat) : Plain (Text.ofNat n) := fun _ hc =>
  not_special_of_isDigit (Nat.isDigit_of_mem_toDigits (by decide) (by decide) hc)

theorem plain_ofInt (n : Int) : Plain (Text.ofInt n) := by
  unfold Text.ofInt
  split
  · exact .cons (by decide) (plain_ofNat _)
  · exact plain_ofNat _

theorem plain_replicate {c : Char} (h : c ∉ special) (n : Nat) : Plain (List.replicate n c) := by
  intro d hd
  rw [List.eq_of_mem_replicate hd]
  exact h

open Decimal (exponentText Format)

theorem plain_exponentText (e : Int) : Plain (exponentText e) := by
  unfold exponentText
  refine .cons (by decide) (.cons ?_ ?_)
  · split <;> decide
  · split
    · exact .cons (by decide) (plain_ofNat _)
    · exact plain_ofNat _

theorem plain_layOut (f : Format) {ds : Text} (hds : Plain ds) (point : Int) :
    Plain (f.layOut ds point) := by
  have hpoint : Plain ['.'] := by decide
  have hzeros (n : Nat) : Plain (List.replicate n '0') := plain_replicate (by decide) n
  unfold Format.layOut
  split
  · split
    · exact (Plain.append (s := ['0', '.']) (by decide) (hzeros _)).append hds
    · dsimp only
      split
      · exact (hds.append (hzeros _)).append (by decide)
      · exact (hds.of_subset (List.take_subset ..)).append
          (hpoint.append (hds.of_subset (List.drop_subset ..)))
  · split
    · exact hds
    · exact hds.append (plain_exponentText _)
    · next d rest _ =>
        exact (Plain.append (s := [d]) (hds.of_subset (by simp))
          (hpoint.append (hds.of_subset (by simp)))).append (plain_exponentText _)

/-- A floating point number is written in plain text if its special values are. -/
theorem plain_format {f : Format} (hnan : Plain f.nan) (hinfinity : Plain f.infinity) (x : Float) :
    Plain (f.text x) := by
  have hsigned (negative : Bool) {t : Text} (ht : Plain t) :
      Plain (if negative then '-' :: t else t) := by
    split
    · exact .cons (by decide) ht
    · exact ht
  unfold Format.text
  split
  · exact hnan
  · exact hsigned _ hinfinity
  · exact hsigned _ (by decide)
  · refine hsigned _ (plain_layOut f ?_ _)
    exact (plain_ofNat _).of_subset fun c hc =>
      List.mem_reverse.mp ((List.dropWhile_subset _) (List.mem_reverse.mp hc))

theorem plain_shown (x : Float) : Plain (Decimal.shown.text x) :=
  plain_format (by decide) (by decide) x

end Numbers

end Safe

end EmbeddedMarkup
