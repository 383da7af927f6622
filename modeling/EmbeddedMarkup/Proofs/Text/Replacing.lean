import EmbeddedMarkup.Text.Basic

/-!
# Replacing a text everywhere

`replaceAll` goes through a text once. Where the needle stands it writes the replacement and goes on
behind the needle; everywhere else it keeps one character. `replaceAll_induction` is that walk as a
principle of induction.
-/

namespace EmbeddedMarkup.Text

variable {needle replacement : Text}

theorem isPrefixOf_eq_false_iff {p t : Text} : p.isPrefixOf t = false ↔ ¬p <+: t := by
  rw [← List.isPrefixOf_iff_prefix, Bool.not_eq_true]

theorem replaceFrom_eq_drop (n : Nat) (t : Text) :
    replaceFrom needle replacement n t = replaceFrom needle replacement 0 (t.drop n) := by
  induction n generalizing t with
  | zero => simp
  | succ n ih =>
      cases t with
      | nil => simp [replaceFrom]
      | cons c t => simp [replaceFrom, ih]

theorem replaceAll_append_left (hn : needle ≠ []) (t : Text) :
    replaceAll needle replacement (needle ++ t) = replacement ++
      replaceAll needle replacement t := by
  cases needle with
  | nil => exact absurd rfl hn
  | cons c needle =>
      have hstarts : (c :: needle).isPrefixOf (c :: (needle ++ t)) = true := by
        simp [List.isPrefixOf_iff_prefix]
      simp [replaceAll, replaceFrom, hstarts, replaceFrom_eq_drop needle.length]

theorem replaceAll_cons {c : Char} {t : Text} (h : needle.isPrefixOf (c :: t) = false) :
    replaceAll needle replacement (c :: t) = c :: replaceAll needle replacement t := by
  simp [replaceAll, replaceFrom, h]

/-- What holds of the end of a text, and is kept when the needle or a character at which no needle
begins comes before it, holds of every text. -/
theorem replaceAll_induction {P : Text → Prop} (hn : needle ≠ []) (nil : P [])
    (hit : ∀ t, P t → P (needle ++ t))
    (miss : ∀ c t, needle.isPrefixOf (c :: t) = false → P t → P (c :: t)) (t : Text) : P t := by
  induction hlen : t.length using Nat.strongRecOn generalizing t with
  | ind n ih =>
      cases t with
      | nil => exact nil
      | cons c t =>
          cases h : needle.isPrefixOf (c :: t) with
          | false => exact miss c t h (ih t.length (by simp at hlen; omega) t rfl)
          | true =>
              obtain ⟨r, hr⟩ := List.isPrefixOf_iff_prefix.mp h
              have hpos : 0 < needle.length := List.length_pos_iff.mpr hn
              have hlt : r.length < n := by
                rw [← hlen, ← hr, List.length_append]
                omega
              rw [← hr]
              exact hit r (ih r.length hlt r rfl)

theorem mem_replaceAll {c : Char} {t : Text} (hn0 : needle ≠ []) (hc : c ∈ t) (hn : c ∉ needle) :
    c ∈ replaceAll needle replacement t := by
  induction t using replaceAll_induction hn0 with
  | nil => simp at hc
  | hit t ih =>
      rw [replaceAll_append_left hn0]
      exact List.mem_append_right _ (ih ((List.mem_append.mp hc).resolve_left hn))
  | miss d t h ih =>
      rw [replaceAll_cons h]
      rcases List.mem_cons.mp hc with rfl | hc
      · exact List.mem_cons_self ..
      · exact List.mem_cons_of_mem _ (ih hc)

theorem replaceAll_eq_self {t : Text} (h : ¬needle <:+: t) :
    replaceAll needle replacement t = t := by
  induction t with
  | nil => rfl
  | cons c t ih =>
      obtain ⟨hstarts, ht⟩ := not_or.mp (mt List.infix_cons_iff.mpr h)
      rw [replaceAll_cons (isPrefixOf_eq_false_iff.mpr hstarts), ih ht]

/-- Where the replacement begins as the needle does, texts without that character stand at the start
of the result just if they stand at the start of the text. -/
theorem starts_replaceAll_iff {c : Char} {n r w : Text} (hc : c ∉ w) (t : Text) :
    w <+: replaceAll (c :: n) (c :: r) t ↔ w <+: t := by
  have hhead (t : Text) : (replaceAll (c :: n) (c :: r) t).head? = t.head? := by
    induction t using replaceAll_induction (List.cons_ne_nil c n) with
    | nil => rfl
    | hit t _ => rw [replaceAll_append_left (List.cons_ne_nil c n)]; rfl
    | miss d t h _ => rw [replaceAll_cons h]; rfl
  induction w generalizing t with
  | nil => simp
  | cons d w ih =>
      obtain ⟨hcd, hw⟩ := List.ne_and_not_mem_of_not_mem_cons hc
      cases t with
      | nil => rfl
      | cons e t =>
          by_cases hed : d = e
          · subst hed
            have hmiss : (c :: n).isPrefixOf (d :: t) = false := by simp [List.isPrefixOf, hcd]
            rw [replaceAll_cons hmiss, List.cons_prefix_cons, List.cons_prefix_cons]
            exact and_congr_right fun _ => ih hw t
          · obtain ⟨u, hu⟩ := List.head?_eq_some_iff.mp (hhead (e :: t))
            simp [hu, hed]

end EmbeddedMarkup.Text
