import EmbeddedMarkup.Text.Basic
import Mathlib.Data.List.DropRight
import Mathlib.Data.List.TakeWhile

/-!
# Lines joined and cut apart

Cutting a text at a character and joining the pieces with it gives the text back, and the pieces of
joined texts are the pieces of each of them.
-/

namespace EmbeddedMarkup.Text

theorem takeWhile_append_cons {p : Char → Bool} {w : Text} (hw : ∀ c ∈ w, p c = true) {d : Char}
    (hd : p d = false) (t : Text) : (w ++ d :: t).takeWhile p = w := by
  rw [List.takeWhile_append_of_pos hw, List.takeWhile_cons_of_neg (by simp [hd]), List.append_nil]

theorem dropWhile_append_cons {p : Char → Bool} {w : Text} (hw : ∀ c ∈ w, p c = true) {d : Char}
    (hd : p d = false) (t : Text) : (w ++ d :: t).dropWhile p = d :: t := by
  rw [List.dropWhile_append_of_pos hw, List.dropWhile_cons_of_neg (by simp [hd])]

theorem join_cons {sep t : Text} {ts : List Text} (h : ts ≠ []) :
    join sep (t :: ts) = t ++ sep ++ join sep ts :=
  List.intercalate_cons_of_ne_nil h

theorem join_append {sep : Text} {ts us : List Text} (ht : ts ≠ []) (hu : us ≠ []) :
    join sep (ts ++ us) = join sep ts ++ sep ++ join sep us := by
  induction ts with
  | nil => exact absurd rfl ht
  | cons t ts ih =>
      cases ts with
      | nil =>
          rw [List.singleton_append, join_cons hu]
          simp [join]
      | cons t' ts =>
          rw [List.cons_append, join_cons (by simp), ih (by simp),
            join_cons (List.cons_ne_nil t' ts)]
          simp

theorem splitWhen_eq_splitOnP (sep : Char → Bool) (t : Text) :
    splitWhen sep t = t.splitOnP sep := by
  induction t with
  | nil => rfl
  | cons c t ih =>
      rw [List.splitOnP_cons_eq_if_modifyHead, splitWhen, ih]
      congr 1
      cases hs : t.splitOnP sep with
      | nil => exact absurd hs (List.splitOnP_ne_nil sep t)
      | cons piece pieces => rfl

theorem splitOn_eq (c : Char) (t : Text) : splitOn c t = List.splitOn c t :=
  splitWhen_eq_splitOnP _ t

theorem splitOn_ne_nil (c : Char) (t : Text) : splitOn c t ≠ [] :=
  splitOn_eq c t ▸ List.splitOn_ne_nil c t

theorem join_splitOn (c : Char) (t : Text) : join [c] (splitOn c t) = t := by
  rw [splitOn_eq]
  exact List.intercalate_splitOn c

theorem splitOn_append (c : Char) (t u : Text) :
    splitOn c (t ++ c :: u) = splitOn c t ++ splitOn c u := by
  rw [splitOn_eq, splitOn_eq, splitOn_eq, List.splitOn_append_cons_self]

theorem splitOn_of_not_mem {c : Char} {t : Text} (h : c ∉ t) : splitOn c t = [t] := by
  rw [splitOn_eq, List.splitOn_eq_singleton h]

theorem splitOn_cons_self (c : Char) (t : Text) : splitOn c (c :: t) = [] :: splitOn c t :=
  splitOn_append c [] t

/-- A text that is not cut stands in front of the first piece. -/
theorem exists_splitOn_append {c : Char} {s : Text} (h : c ∉ s) (t : Text) :
    ∃ u ts, splitOn c t = u :: ts ∧ splitOn c (s ++ t) = (s ++ u) :: ts := by
  induction s with
  | nil =>
      obtain ⟨u, ts, hs⟩ := List.exists_cons_of_ne_nil (splitOn_ne_nil c t)
      exact ⟨u, ts, hs, hs⟩
  | cons d s ih =>
      obtain ⟨hd, hs⟩ := List.ne_and_not_mem_of_not_mem_cons h
      obtain ⟨u, ts, ht, hsplit⟩ := ih hs
      refine ⟨u, ts, ht, ?_⟩
      rw [splitOn_eq] at hsplit ⊢
      rw [List.cons_append, List.splitOn_cons_eq_if_modifyHead, if_neg (by simpa using hd.symm),
        hsplit]
      rfl

theorem join_splitOn_self (sep : Text) (c : Char) (t : Text) :
    join sep (splitOn c (c :: t)) = sep ++ join sep (splitOn c t) := by
  rw [splitOn_cons_self, join_cons (splitOn_ne_nil c t), List.nil_append]

theorem join_splitOn_cons {sep : Text} {c d : Char} {t : Text} (h : d ≠ c) :
    join sep (splitOn c (d :: t)) = d :: join sep (splitOn c t) := by
  obtain ⟨u, ts, hs, hsplit⟩ := exists_splitOn_append (List.mem_singleton.not.mpr (Ne.symm h)) t
  rw [← List.singleton_append, hsplit, hs]
  exact List.intercalate_cons_cons_left

/-- Cutting pieces at line ends does not change the lines they are joined to. -/
theorem join_flatMap_splitOn (c : Char) (ts : List Text) :
    join [c] (ts.flatMap (splitOn c)) = join [c] ts := by
  induction ts with
  | nil => rfl
  | cons t ts ih =>
      cases ts with
      | nil => simpa [join] using join_splitOn c t
      | cons u ts =>
          have hne : ((u :: ts).flatMap (splitOn c)) ≠ [] := by simp [splitOn_ne_nil]
          rw [List.flatMap_cons, join_append (splitOn_ne_nil c t) hne, join_splitOn, ih,
            join_cons (List.cons_ne_nil u ts)]

theorem dropRightWhile_newlines (x : Text) :
    ∃ n, x = dropRightWhile (· == '\n') x ++ List.replicate n '\n' := by
  refine ⟨(x.rtakeWhile (· == '\n')).length, ?_⟩
  rw [← List.eq_replicate_of_mem fun c hc => by simpa using List.mem_rtakeWhile_imp hc]
  exact List.rdropWhile_append_rtakeWhile.symm

theorem dropRightWhile_eq_self {p : Char → Bool} {x : Text}
    (h : ∀ c, x.getLast? = some c → p c = false) :
    dropRightWhile p x = x := by
  refine List.rdropWhile_eq_self_iff.mpr fun hx => ?_
  simp [h _ (List.getLast?_eq_some_getLast hx)]

theorem join_concat (c : Char) (ts : List Text) (t : Text) :
    join [c] (ts ++ [t]) = ts.flatMap (· ++ [c]) ++ t := by
  induction ts with
  | nil => simp [join]
  | cons u ts ih => simp [join_cons, ih]

theorem not_mem_of_mem_splitOn {c : Char} {t piece : Text} (h : piece ∈ splitOn c t) :
    c ∉ piece := by
  induction t generalizing piece with
  | nil =>
      obtain rfl : piece = [] := List.mem_singleton.mp h
      exact List.not_mem_nil
  | cons d t ih =>
      by_cases hd : d = c
      · rw [hd, splitOn_cons_self] at h
        rcases List.mem_cons.mp h with rfl | h
        · exact List.not_mem_nil
        · exact ih h
      · obtain ⟨u, ts, hs, hsplit⟩ :=
          exists_splitOn_append (List.mem_singleton.not.mpr (Ne.symm hd)) t
        rw [hs] at ih
        rw [← List.singleton_append, hsplit] at h
        rcases List.mem_cons.mp h with rfl | h
        · exact List.not_mem_cons_of_ne_of_not_mem (Ne.symm hd) (ih (List.mem_cons_self ..))
        · exact ih (List.mem_cons_of_mem _ h)

theorem splitOn_join {c : Char} {ts : List Text} (hts : ts ≠ []) :
    splitOn c (join [c] ts) = ts.flatMap (splitOn c) := by
  induction ts with
  | nil => exact absurd rfl hts
  | cons t ts ih =>
      cases ts with
      | nil => simp [join]
      | cons u ts =>
          have hne : u :: ts ≠ [] := List.cons_ne_nil u ts
          rw [join_cons hne, List.flatMap_cons, ← ih hne, List.append_assoc, List.singleton_append,
            splitOn_append]

end EmbeddedMarkup.Text
