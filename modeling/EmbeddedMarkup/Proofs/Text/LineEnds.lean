import EmbeddedMarkup.Html.Gap
import EmbeddedMarkup.Proofs.Text.Joining
import EmbeddedMarkup.Proofs.Text.Respaced
import EmbeddedMarkup.Text.LineEnd

/-!
# Unified line ends

A text with unified line ends has no carriage return. Unifying changes nothing but line ends, so the
characters outside gaps stay as they are, and blanks in front of a text stay blanks. Lines that are
joined by any one line end are found again (`unifyLineEnds_join`).
-/

namespace EmbeddedMarkup.Text

theorem unifyLineEnds_cons {c : Char} {t : Text} (h : c ≠ '\r') :
    unifyLineEnds (c :: t) = c :: unifyLineEnds t := by
  rw [unifyLineEnds]
  · intro t' hc
    exact absurd hc h
  · exact h

theorem unifyLineEnds_return {t : Text} (h : t.head? ≠ some '\n') :
    unifyLineEnds ('\r' :: t) = '\n' :: unifyLineEnds t := by
  rw [unifyLineEnds]
  intro t' ht
  simp [ht] at h

theorem unifyLineEnds_of_not_mem {t : Text} (h : '\r' ∉ t) : unifyLineEnds t = t := by
  induction t with
  | nil => rfl
  | cons c t ih =>
      have hc : c ≠ '\r' := fun e => h (e ▸ List.mem_cons_self ..)
      rw [unifyLineEnds_cons hc, ih fun hm => h (List.mem_cons_of_mem _ hm)]

/-- Where no line end is cut in two, the parts are unified by themselves. -/
theorem unifyLineEnds_append_of_head {t u : Text} (h : u.head? ≠ some '\n') :
    unifyLineEnds (t ++ u) = unifyLineEnds t ++ unifyLineEnds u := by
  induction t using unifyLineEnds.induct with
  | case1 => rfl
  | case2 t ih =>
      rw [unifyLineEnds, List.cons_append, List.cons_append, List.cons_append, unifyLineEnds, ih]
  | case3 t hne ih =>
      have hnext : t.head? ≠ some '\n' := by
        intro hhead
        obtain ⟨t', rfl⟩ := List.head?_eq_some_iff.mp hhead
        exact hne t' rfl
      have hnext' : (t ++ u).head? ≠ some '\n' := by
        cases t with
        | nil => exact h
        | cons c t => exact hnext
      rw [unifyLineEnds_return hnext, List.cons_append, List.cons_append,
        unifyLineEnds_return hnext', ih]
  | case4 c t _ hc ih =>
      have hc : c ≠ '\r' := hc
      rw [unifyLineEnds_cons hc, List.cons_append, List.cons_append, unifyLineEnds_cons hc, ih]

theorem unifyLineEnds_append_of_not_mem {t u : Text} (h : '\r' ∉ t) :
    unifyLineEnds (t ++ u) = t ++ unifyLineEnds u := by
  induction t with
  | nil => rfl
  | cons c t ih =>
      have hc : c ≠ '\r' := fun e => h (e ▸ List.mem_cons_self ..)
      rw [List.cons_append, unifyLineEnds_cons hc, ih fun hm => h (List.mem_cons_of_mem _ hm),
        List.cons_append]

theorem unifyLineEnds_eq_nil_iff {t : Text} : unifyLineEnds t = [] ↔ t = [] := by
  induction t using unifyLineEnds.induct with
  | case1 => simp [unifyLineEnds]
  | case2 t ih => simp [unifyLineEnds]
  | case3 t h ih =>
      rw [unifyLineEnds]
      · simp
      · exact h
  | case4 c t h h' ih =>
      rw [unifyLineEnds_cons h']
      simp

theorem return_not_mem_unifyLineEnds (t : Text) : '\r' ∉ unifyLineEnds t := by
  induction t using unifyLineEnds.induct with
  | case1 => simp [unifyLineEnds]
  | case2 t ih => simpa [unifyLineEnds] using ih
  | case3 t h ih =>
      rw [unifyLineEnds]
      · simpa using ih
      · exact h
  | case4 c t h h' ih =>
      have hc : c ≠ '\r' := h'
      rw [unifyLineEnds_cons hc]
      simpa [hc.symm] using ih

theorem firstLineEnd?_of_not_mem {t : Text} (h : '\r' ∉ t) :
    (firstLineEnd? t).getD ['\n'] = ['\n'] := by
  induction t with
  | nil => rfl
  | cons c t ih =>
      have hc : c ≠ '\r' := fun e => h (e ▸ List.mem_cons_self ..)
      rw [firstLineEnd?]
      · split
        · next hend =>
            have hc : c = '\n' := by simpa [hc] using hend
            rw [hc]
            rfl
        · exact ih fun hm => h (List.mem_cons_of_mem _ hm)
      · intro t' e
        exact absurd e hc

def lineEnds : List Text := [['\n'], ['\r'], ['\r', '\n']]

theorem firstLineEnd?_mem {t e : Text} (h : firstLineEnd? t = some e) : e ∈ lineEnds := by
  induction t using firstLineEnd?.induct with
  | case1 => cases h
  | case2 t =>
      obtain rfl := Option.some.inj h
      decide
  | case3 c t hne hc =>
      rw [firstLineEnd?, if_pos hc] at h
      · obtain rfl := Option.some.inj h
        simp only [Bool.or_eq_true, decide_eq_true_eq] at hc
        rcases hc with rfl | rfl <;> decide
      · exact hne
  | case4 c t hne hc ih =>
      rw [firstLineEnd?, if_neg hc] at h
      · exact ih h
      · exact hne

/-- A line end is not empty and is made of blanks. -/
theorem blank_of_mem_lineEnds {e : Text} (h : e ∈ lineEnds) :
    e ≠ [] ∧ ∀ c ∈ e, Html.isGapChar c = true := by
  simp only [lineEnds, List.mem_cons, List.not_mem_nil, or_false] at h
  rcases h with rfl | rfl | rfl <;> exact ⟨by simp, List.all_eq_true.mp (by decide)⟩

section Lines

variable {d e : Text}

theorem head?_join_return (d : Text) : (join ['\r'] (splitOn '\n' d)).head? ≠ some '\n' := by
  cases d with
  | nil => simp [splitOn, splitWhen, join]
  | cons c d =>
      by_cases hc : c = '\n'
      · subst hc
        rw [join_splitOn_self]
        simp
      · rw [join_splitOn_cons hc]
        simp [hc]

/-- Lines are found again, whatever line end they are joined with. -/
theorem unifyLineEnds_join (he : e ∈ lineEnds) (hd : '\r' ∉ d) :
    unifyLineEnds (join e (splitOn '\n' d)) = d := by
  induction d with
  | nil => simp [splitOn, splitWhen, join, unifyLineEnds]
  | cons c d ih =>
      obtain ⟨hc, hd⟩ := not_or.mp (List.mem_cons.not.mp hd)
      have ih := ih hd
      by_cases hn : c = '\n'
      · subst hn
        rw [join_splitOn_self]
        simp only [lineEnds, List.mem_cons, List.not_mem_nil, or_false] at he
        rcases he with rfl | rfl | rfl
        · rw [List.singleton_append, unifyLineEnds_cons (Ne.symm hc), ih]
        · rw [List.singleton_append, unifyLineEnds_return (head?_join_return d), ih]
        · exact congrArg ('\n' :: ·) ih
      · rw [join_splitOn_cons hn, unifyLineEnds_cons (Ne.symm hc), ih]

/-- The line end that lines are joined with is the first line end. -/
theorem firstLineEnd?_join (he : e ∈ lineEnds) (hd : '\r' ∉ d) (hn : '\n' ∈ d) :
    firstLineEnd? (join e (splitOn '\n' d)) = some e := by
  induction d with
  | nil => cases hn
  | cons c d ih =>
      obtain ⟨hc, hd⟩ := not_or.mp (List.mem_cons.not.mp hd)
      by_cases hnew : c = '\n'
      · subst hnew
        rw [join_splitOn_self]
        simp only [lineEnds, List.mem_cons, List.not_mem_nil, or_false] at he
        rcases he with rfl | rfl | rfl
        · rfl
        · rw [List.singleton_append, firstLineEnd?, if_pos (by simp)]
          intro t' _ ht'
          exact head?_join_return d (by rw [ht']; rfl)
        · rfl
      · rw [join_splitOn_cons hnew, firstLineEnd?, if_neg (by simp [hnew, Ne.symm hc])]
        · exact ih hd ((List.mem_cons.mp hn).resolve_left (Ne.symm hnew))
        · intro t' e'
          exact absurd e'.symm hc

theorem join_splitOn_of_not_mem (hn : '\n' ∉ d) (e : Text) : join e (splitOn '\n' d) = d := by
  induction d with
  | nil => simp [splitOn, splitWhen, join]
  | cons c d ih =>
      obtain ⟨hc, hn⟩ := not_or.mp (List.mem_cons.not.mp hn)
      rw [join_splitOn_cons (Ne.symm hc), ih hn]

end Lines

theorem filter_unifyLineEnds (t : Text) :
    ((unifyLineEnds t).filter fun c => !Html.isGapChar c) = t.filter fun c =>
      !Html.isGapChar c := by
  have hn : Html.isGapChar '\n' = true := by decide
  have hr : Html.isGapChar '\r' = true := by decide
  induction t using unifyLineEnds.induct with
  | case1 => rfl
  | case2 t ih => simpa [unifyLineEnds, hn, hr] using ih
  | case3 t h ih =>
      rw [unifyLineEnds]
      · simpa [hn, hr] using ih
      · exact h
  | case4 c t h h' ih =>
      have hc : c ≠ '\r' := h'
      rw [unifyLineEnds_cons hc, List.filter_cons, List.filter_cons, ih]

theorem isGapChar_unifyLineEnds {t : Text} (h : ∀ c ∈ t, Html.isGapChar c = true) :
    ∀ c ∈ unifyLineEnds t, Html.isGapChar c = true := by
  have hnone : (t.filter fun c => !Html.isGapChar c) = [] := by
    rw [List.filter_eq_nil_iff]
    intro c hc
    simp [h c hc]
  intro c hc
  rw [← filter_unifyLineEnds, List.filter_eq_nil_iff] at hnone
  simpa using hnone c hc

/-- Unifying line ends keeps blanks where they are. -/
theorem Respaced.unifyLineEnds {B : Char → Bool} {β : Bonds} (newline : B '\n' = true)
    (return' : B '\r' = true) (t : Text) (q : Option Char) :
    Respaced B β q t (Text.unifyLineEnds t) := by
  have hn : Blanks B ['\n'] := by simpa [Blanks] using newline
  have hr : Blanks B ['\r'] := by simpa [Blanks] using return'
  induction t using unifyLineEnds.induct generalizing q with
  | case1 => exact .refl B β q []
  | case2 t ih =>
      rw [Text.unifyLineEnds]
      exact (ih none).after_blanks (hr.append hn) hn (by simp) (by simp) q
  | case3 t h ih =>
      rw [Text.unifyLineEnds]
      · exact (ih none).after_blanks hr hn (by simp) (by simp) q
      · exact h
  | case4 c t h h' ih =>
      rw [unifyLineEnds_cons h']
      exact (ih (some c)).prepend (t := [c]) (by simp) q

/-- Blanks in front of a text with unified line ends stay blanks. -/
theorem unifyLineEnds_append {B : Char → Bool} (newline : B '\n' = true) {w t : Text}
    (hw : Blanks B w) (ht : '\r' ∉ t) (hhead : t.head? ≠ some '\n') :
    ∃ w', Blanks B w' ∧ unifyLineEnds (w ++ t) = w' ++ t := by
  induction w using unifyLineEnds.induct with
  | case1 => exact ⟨[], .nil, by simpa using unifyLineEnds_of_not_mem ht⟩
  | case2 w ih =>
      obtain ⟨w', hw', h⟩ := ih (Blanks.cons_iff.mp (Blanks.cons_iff.mp hw).2).2
      exact ⟨'\n' :: w', Blanks.cons_iff.mpr ⟨newline, hw'⟩, by simp [unifyLineEnds, h]⟩
  | case3 w hne ih =>
      obtain ⟨w', hw', h⟩ := ih (Blanks.cons_iff.mp hw).2
      refine ⟨'\n' :: w', Blanks.cons_iff.mpr ⟨newline, hw'⟩, ?_⟩
      rw [List.cons_append, unifyLineEnds_return, h, List.cons_append]
      cases w with
      | nil => simpa using hhead
      | cons d w =>
          intro hd
          obtain rfl : d = '\n' := by simpa using hd
          exact hne w rfl
  | case4 c w _ hc ih =>
      obtain ⟨hcB, hw⟩ := Blanks.cons_iff.mp hw
      obtain ⟨w', hw', h⟩ := ih hw
      have hc : c ≠ '\r' := hc
      refine ⟨c :: w', Blanks.cons_iff.mpr ⟨hcB, hw'⟩, ?_⟩
      rw [List.cons_append, unifyLineEnds_cons hc, h, List.cons_append]

end EmbeddedMarkup.Text
