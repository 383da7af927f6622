import EmbeddedMarkup.Text.Casing
import EmbeddedMarkup.Text.Blank
import Mathlib.Data.List.Basic

/-!
# Letter case of names

The names of elements are compared in lower case, and an end tag is found whatever its case. Both
come down to single characters: a text is lowered character by character unless it holds one of two
capitals, and small letters and digits stay as they are.
-/

namespace EmbeddedMarkup.Text

/-- The letters, digits and signs that names are made of. -/
def isNameSign (c : Char) : Bool :=
  c.isLower || c.isUpper || c.isDigit || c == '-' || c == '_' || c == '.' || c == ':'

/-- The code points of these characters. -/
def nameSigns : List Nat :=
  [0x2d, 0x2e, 0x3a, 0x5f] ++ List.range' 0x30 10 ++ List.range' 0x41 26 ++ List.range' 0x61 26

theorem toNat_mem_nameSigns {c : Char} (h : isNameSign c = true) : c.toNat ∈ nameSigns := by
  -- letters and digits are tested by the bounds of their code points
  have hbounds : ∀ {a b : UInt32}, c.val ≥ a ∧ c.val ≤ b → a.toNat ≤ c.toNat ∧ c.toNat ≤ b.toNat :=
    fun h => ⟨UInt32.le_iff_toNat_le.mp h.1, UInt32.le_iff_toNat_le.mp h.2⟩
  have hboth : ∀ {p q : Prop} [Decidable p] [Decidable q],
      (decide p && decide q) = true → p ∧ q := by simp
  simp only [isNameSign, Bool.or_eq_true, beq_iff_eq] at h
  simp only [nameSigns, List.mem_append, List.mem_cons, List.not_mem_nil, List.mem_range'_1,
    or_false]
  rcases h with (((((h | h) | h) | rfl) | rfl) | rfl) | rfl
  · have hletter : 97 ≤ c.toNat ∧ c.toNat ≤ 122 := hbounds (hboth h)
    omega
  · have hletter : 65 ≤ c.toNat ∧ c.toNat ≤ 90 := hbounds (of_decide_eq_true h)
    omega
  · have hdigit : 48 ≤ c.toNat ∧ c.toNat ≤ 57 := hbounds (hboth h)
    omega
  all_goals decide

theorem nameSigns_lower :
    ∀ n ∈ nameSigns, n ≠ 0x130 ∧ n ≠ 0x3a3 ∧ isNameSign (lowerChar (Char.ofNat n)) = true := by
  decide

theorem nameSigns_blank : ∀ n ∈ nameSigns, inRanges n blankRanges = false := by
  decide

theorem not_isBlank_of_isNameSign {c : Char} (h : isNameSign c = true) : isBlank c = false :=
  nameSigns_blank _ (toNat_mem_nameSigns h)

theorem isNameSign_lowerChar {c : Char} (h : isNameSign c = true) :
    isNameSign (lowerChar c) = true := by
  have hsign := (nameSigns_lower _ (toNat_mem_nameSigns h)).2.2
  rwa [Char.ofNat_toNat] at hsign

/-- Outside two capitals, a text is lowered character by character. -/
theorem lowerFrom_eq_map {t : Text} (h : ∀ c ∈ t, c.toNat ≠ 0x130 ∧ c.toNat ≠ 0x3a3)
    (before : Text) :
    lowerFrom before t = t.map lowerChar := by
  induction t generalizing before with
  | nil => rfl
  | cons c t ih =>
      obtain ⟨hne, hne'⟩ := h c (List.mem_cons_self ..)
      have hmore := ih (fun d hd => h d (List.mem_cons_of_mem c hd)) (c :: before)
      rw [lowerFrom, lowerBetween, if_neg hne, if_neg hne', hmore]
      rfl

/-- A name is lowered sign by sign, also behind a slash. -/
theorem lower_of_isNameSign {t : Text} (h : ∀ c ∈ t, isNameSign c = true ∨ c = '/') :
    lower t = t.map lowerChar := by
  refine lowerFrom_eq_map (fun c hc => ?_) []
  rcases h c hc with hsign | rfl
  · obtain ⟨hne, hne', -⟩ := nameSigns_lower _ (toNat_mem_nameSigns hsign)
    exact ⟨hne, hne'⟩
  · decide

/-- The letter has no other letter of the same capital. -/
def isUnshared (c : Char) : Bool :=
  sharedCapitals.all fun group => !group.contains (lowerChar c).toNat

theorem lowerChar_eq_of_sameLetter {c d : Char} (hc : isUnshared c = true)
    (h : sameLetter c d = true) :
    lowerChar d = lowerChar c := by
  have hnone : (sharedCapitals.any fun group =>
      group.contains (lowerChar c).toNat && group.contains (lowerChar d).toNat) = false := by
    rw [List.any_eq_false]
    intro group hgroup
    have := List.all_eq_true.mp hc group hgroup
    simp_all
  simp only [sameLetter, hnone, Bool.or_false, beq_iff_eq] at h
  exact (Char.toNat_inj.mp h).symm

theorem startsWithLetters_append {name letters : Text} (h : letters.length = name.length)
    (rest : Text) :
    startsWithLetters name (letters ++ rest) = startsWithLetters name letters := by
  induction name generalizing letters with
  | nil => simp [startsWithLetters]
  | cons c name ih =>
      cases letters with
      | nil => simp at h
      | cons d letters => simp [startsWithLetters, ih (Nat.succ.inj h)]

theorem length_le_of_startsWithLetters {name t : Text} (h : startsWithLetters name t = true) :
    name.length ≤ t.length := by
  induction name generalizing t with
  | nil => simp
  | cons c name ih =>
      cases t with
      | nil => simp [startsWithLetters] at h
      | cons d t =>
          simp only [startsWithLetters, Bool.and_eq_true] at h
          exact Nat.succ_le_succ (ih h.2)

theorem exists_sameLetter {name letters : Text} (hlength : letters.length = name.length)
    (h : startsWithLetters name letters = true) {d : Char} (hd : d ∈ letters) :
    ∃ c ∈ name, sameLetter c d = true := by
  induction name generalizing letters with
  | nil => simp [List.length_eq_zero_iff.mp hlength] at hd
  | cons c name ih =>
      cases letters with
      | nil => simp at hd
      | cons e letters =>
          simp only [startsWithLetters, Bool.and_eq_true] at h
          rcases List.mem_cons.mp hd with rfl | hd
          · exact ⟨c, List.mem_cons_self .., h.1⟩
          · obtain ⟨c', hc', hsame⟩ := ih (Nat.succ.inj hlength) h.2 hd
            exact ⟨c', List.mem_cons_of_mem _ hc', hsame⟩

/-- A text that starts with a word in some case starts with a piece whose lower case is the word. -/
theorem startsWithLetters_eq {p t : Text}
    (hp : ∀ c ∈ p, isUnshared c = true ∧ lowerChar c = c ∧ c ≠ 'i' ∧ c.toNat ≠ 0x3c3)
    (h : startsWithLetters p t = true) :
    ∃ u rest, t = u ++ rest ∧ u.map lowerChar = p ∧
      ∀ d ∈ u, d.toNat ≠ 0x130 ∧ d.toNat ≠ 0x3a3 := by
  induction p generalizing t with
  | nil => exact ⟨[], t, rfl, rfl, by simp⟩
  | cons c p ih =>
      cases t with
      | nil => simp [startsWithLetters] at h
      | cons d t =>
          rw [startsWithLetters, Bool.and_eq_true] at h
          obtain ⟨u, rest, rfl, hu, hplain⟩ := ih (fun e he => hp e (List.mem_cons_of_mem c he)) h.2
          obtain ⟨hunshared, hlower, hi, hsigma⟩ := hp c (List.mem_cons_self ..)
          have hd : lowerChar d = c := (lowerChar_eq_of_sameLetter hunshared h.1).trans hlower
          refine ⟨d :: u, rest, rfl, by simp [hd, hu], List.forall_mem_cons.mpr ⟨⟨?_, ?_⟩, hplain⟩⟩
          · intro hcap
            rw [lowerChar, if_pos hcap] at hd
            exact hi hd.symm
          · intro hcap
            have hdot : d = Char.ofNat 0x3a3 := by rw [← hcap, Char.ofNat_toNat]
            exact hsigma (by rw [← hd, hdot]; decide)

end EmbeddedMarkup.Text
