import EmbeddedMarkup.Text.Reader
import Mathlib.Data.List.Basic

/-!
# Where readers stop

A reader that runs up to a stop ends at a match of the stop or at the end of the text
(`Recognizer.Stops`). One that runs through a stop ends with the last character of a match, or at
the end of the text (`Text.EndsAt`). Only these two facts about readers are needed to see what can
follow a piece of text.
-/

namespace EmbeddedMarkup

/-- The first `n` characters of the text are all of it, or the last of them is `c`. -/
def Text.EndsAt (c : Char) (n : Nat) (t : Text) : Prop :=
  t.drop n = [] ∨ (t.take n).getLast? = some c

theorem Text.EndsAt.add {c : Char} {m n : Nat} {t : Text} (h : EndsAt c n (t.drop m)) :
    EndsAt c (m + n) t := by
  rcases h with h | h
  · exact .inl (by rw [← List.drop_drop, h])
  · refine .inr ?_
    rw [List.take_add, List.getLast?_append, h]
    rfl

namespace Recognizer

variable {r s : Recognizer} {c : Char} {t : Text}

/-- The text is at its end, or begins with a match of the recognizer. -/
def Stops (r : Recognizer) (t : Text) : Prop := t = [] ∨ (r t).isSome = true

/-- Each match of the recognizer ends with the character. -/
def EndsIn (r : Recognizer) (c : Char) : Prop := ∀ t n, r t = some n → (t.take n).getLast? = some c

theorem search_eq_some {i n : Nat} (h : r.search t = some (i, n)) : r (t.drop i) = some n := by
  induction t generalizing i with
  | nil =>
      obtain ⟨m, hm, heq⟩ := Option.map_eq_some_iff.mp h
      obtain ⟨rfl, rfl⟩ := Prod.mk.inj heq
      exact hm
  | cons d t ih =>
      rw [search] at h
      split at h
      · next m hm =>
          obtain ⟨rfl, rfl⟩ := Prod.mk.inj (Option.some.inj h)
          exact hm
      · obtain ⟨⟨j, m⟩, hm, heq⟩ := Option.map_eq_some_iff.mp h
        obtain ⟨rfl, rfl⟩ := Prod.mk.inj heq
        exact ih hm

theorem search_eq_none_iff :
    r.search t = none ↔ ∀ before after, t = before ++ after → r after = none := by
  induction t with
  | nil => simp [search]
  | cons d t ih =>
      constructor
      · intro h before after heq
        rw [search] at h
        split at h
        · cases h
        · next hnone =>
            cases before with
            | nil => rwa [← show d :: t = after from heq]
            | cons e before =>
                exact ih.mp (Option.map_eq_none_iff.mp h) before after (List.cons.inj heq).2
      · intro h
        have hrest : search r t = none :=
          ih.mpr fun before after heq => h (d :: before) after (by rw [heq]; rfl)
        rw [search, h [] (d :: t) rfl, hrest]
        rfl

theorem stops_reach (r : Recognizer) (t : Text) : r.Stops (t.drop (r.reach t)) := by
  unfold reach
  split
  · next m hm => exact .inr (by rw [search_eq_some hm]; rfl)
  · exact .inl (List.drop_length ..)

theorem EndsIn.reachPast (h : r.EndsIn c) (t : Text) : Text.EndsAt c (r.reachPast t) t := by
  unfold Recognizer.reachPast
  split
  · next m hm => exact Text.EndsAt.add (.inr (h _ _ (search_eq_some hm)))
  · exact .inl (List.drop_length ..)

theorem literal_eq_some {p : Text} {n : Nat} (h : literal p t = some n) :
    p <+: t ∧ n = p.length := by
  unfold literal at h
  split at h
  · next hp => exact ⟨List.isPrefixOf_iff_prefix.mp hp, (Option.some.inj h).symm⟩
  · cases h

theorem endsIn_literal {p : Text} (h : p.getLast? = some c) : (literal p).EndsIn c := by
  intro t n hn
  obtain ⟨hp, rfl⟩ := literal_eq_some hn
  rw [← List.prefix_iff_eq_take.mp hp, h]

theorem EndsIn.andThen (h : s.EndsIn c) (r : Recognizer) : (r.andThen s).EndsIn c := by
  intro t n hn
  obtain ⟨a, -, hn⟩ := Option.bind_eq_some_iff.mp hn
  obtain ⟨b, hb, rfl⟩ := Option.map_eq_some_iff.mp hn
  rw [List.take_add, List.getLast?_append, h _ _ hb]
  rfl

theorem EndsIn.sequence (h : r.EndsIn c) (rs : List Recognizer) :
    (sequence (rs ++ [r])).EndsIn c := by
  induction rs with
  | nil =>
      intro t n hn
      obtain ⟨a, ha, hn⟩ := Option.bind_eq_some_iff.mp hn
      obtain rfl : a = n := by simpa using hn
      exact h _ _ ha
  | cons r' rs ih => exact ih.andThen r'

theorem Stops.of_orElse (h : (r.orElse s).Stops t) : r.Stops t ∨ s.Stops t := by
  rcases h with h | h
  · exact .inl (.inl h)
  · cases hr : r t with
    | some n => exact .inl (.inr (by rw [hr]; rfl))
    | none => exact .inr (.inr (by simpa [orElse, hr] using h))

theorem firstOf_isSome {rs : List Recognizer} (h : (firstOf rs t).isSome = true) :
    ∃ r ∈ rs, (r t).isSome = true := by
  induction rs with
  | nil => cases h
  | cons r rs ih =>
      cases hr : r t with
      | some n => exact ⟨r, List.mem_cons_self .., by rw [hr]; rfl⟩
      | none =>
          have h : (firstOf rs t).isSome = true := by
            simpa [firstOf, orElse, hr] using h
          obtain ⟨r', hr', hs⟩ := ih h
          exact ⟨r', List.mem_cons_of_mem _ hr', hs⟩

end Recognizer

namespace Reader

open Recognizer (Stops EndsIn)

variable {r : Recognizer} {c : Char} {t : Text}

theorem stops_stopLength (r : Recognizer) (t : Text) :
    r.Stops (t.drop (stopLength (some r) false t)) := by
  cases t with
  | nil => exact .inl rfl
  | cons d t => exact r.stops_reach (d :: t)

theorem stops_upTo (r : Recognizer) (t : Text) : r.Stops (t.drop ((upTo {} r).length t)) := by
  simpa [length, upTo, partLength, stopLength] using stops_stopLength r t

theorem endsAt_stopLength (h : r.EndsIn c) (t : Text) :
    Text.EndsAt c (stopLength (some r) true t) t := by
  cases t with
  | nil => exact .inl rfl
  | cons d t => exact h.reachPast (d :: t)

/-- A piece with an opening and a stop ends with a match of the stop. -/
theorem endsAt_through {opening : Recognizer} (h : r.EndsIn c)
    (hlength : ((startingWith {} opening).through r).length t ≠ 0) :
    Text.EndsAt c (((startingWith {} opening).through r).length t) t := by
  have hpart : ∀ u, partLength none (some r) true u = stopLength (some r) true u := fun _ => rfl
  simp only [length, startingWith, through, Option.isNone_some, Bool.false_or, hpart] at hlength ⊢
  split at hlength
  · next hne =>
      rw [if_pos hne]
      exact (endsAt_stopLength h _).add
  · next hzero => simp at hzero; exact absurd hzero hlength

theorem starts_of_between {a b : Text} (h : (between a b).length t ≠ 0) : a <+: t := by
  cases hopening : (Recognizer.literal a).atText t with
  | none => simp [between, length, startingWith, through, partLength, hopening] at h
  | some n =>
      unfold Recognizer.atText at hopening
      split at hopening
      · cases hopening
      · exact (Recognizer.literal_eq_some hopening).1

/-- A piece with a match at its start and a stop ends with a match of the stop. -/
theorem endsAt_matching {body : Recognizer} (h : r.EndsIn c)
    (hlength : ((matching {} body).through r).length t ≠ 0) :
    Text.EndsAt c (((matching {} body).through r).length t) t := by
  have heq : ((matching {} body).through r).length t = partLength (some body) (some r) true t := by
    simp [length, matching, through, partLength, stopLength]
  rw [heq] at hlength ⊢
  cases hbody : body.atText t with
  | none => simp [partLength, hbody] at hlength
  | some n =>
      simp only [partLength, hbody]
      exact (endsAt_stopLength h _).add

end Reader

end EmbeddedMarkup
