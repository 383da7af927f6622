import EmbeddedMarkup.Proofs.Text.Replacing

/-!
# Texts that differ in blanks

Two texts are *respaced* if they have the same characters in the same order, blanks aside: before
each character, and at the end, the blanks of one text may be replaced by other blanks.

Some blanks matter even so. `Bonds` names pairs of characters that stay next to each other, and
pairs that stay apart. `Respaced B β q s o` says that the text `o` is `s` with other blanks, where
no pair of `β` is torn or joined; `q` is the character in front of both texts, if there is one. With
`Bonds.free`, under which every change of blanks is allowed, two texts are respaced exactly if they
are equal once their blanks are taken out.
-/

namespace EmbeddedMarkup.Text

def Blanks (B : Char → Bool) (w : Text) : Prop := ∀ c ∈ w, B c = true

/-- Pairs of characters whose distance matters. -/
structure Bonds where
  /-- The pairs that stay next to each other. -/
  keeps : Char → Char → Prop
  /-- The pairs that stay apart. -/
  parts : Char → Char → Prop

namespace Bonds

/-- No pair matters. -/
def free : Bonds where
  keeps _ _ := False
  parts _ _ := False

/-- Whether blanks before `d`, after the character `q`, may come or go: `was` says whether there
were some, and `is` whether there are. -/
def Allows (β : Bonds) (q : Option Char) (d : Char) (was is : Bool) : Prop :=
  ∀ c, q = some c → (β.keeps c d → was = false → is = false) ∧
    (β.parts c d → is = false → was = false)

theorem allows_same (β : Bonds) (q : Option Char) (d : Char) (b : Bool) : β.Allows q d b b :=
  fun _ _ => ⟨fun _ h => h, fun _ h => h⟩

theorem allows_present (β : Bonds) (q : Option Char) (d : Char) {v w : Text} (hv : v ≠ [])
    (hw : w ≠ []) : β.Allows q d (!v.isEmpty) (!w.isEmpty) := by
  rw [List.isEmpty_eq_false_iff.mpr hv, List.isEmpty_eq_false_iff.mpr hw]
  exact β.allows_same q d _

theorem Allows.trans {β : Bonds} {q : Option Char} {d : Char} {was mid is : Bool}
    (h : β.Allows q d was mid) (h' : β.Allows q d mid is) : β.Allows q d was is := by
  intro c hc
  obtain ⟨keep, part⟩ := h c hc
  obtain ⟨keep', part'⟩ := h' c hc
  exact ⟨fun hk h0 => keep' hk (keep hk h0), fun hp h0 => part hp (part' hp h0)⟩

end Bonds

/-- The text `o` is `s` with other blanks, after the character `q`. -/
inductive Respaced (B : Char → Bool) (β : Bonds) : Option Char → Text → Text → Prop where
  | blank {q : Option Char} {g g' : Text} (hg : Blanks B g) (hg' : Blanks B g') :
      Respaced B β q g g'
  | char {q : Option Char} {g g' s o : Text} {c : Char} (hg : Blanks B g) (hg' : Blanks B g')
      (hc : B c = false) (allowed : β.Allows q c (!g.isEmpty) (!g'.isEmpty))
      (rest : Respaced B β (some c) s o) : Respaced B β q (g ++ c :: s) (g' ++ c :: o)

variable {B : Char → Bool} {β : Bonds} {q : Option Char} {s o : Text}

namespace Blanks

theorem nil : Blanks B [] := by simp [Blanks]

theorem cons_iff {c : Char} {w : Text} : Blanks B (c :: w) ↔ B c = true ∧ Blanks B w := by
  simp [Blanks]

theorem append_iff {v w : Text} : Blanks B (v ++ w) ↔ Blanks B v ∧ Blanks B w := by
  simp only [Blanks, List.mem_append]
  constructor
  · intro h
    exact ⟨fun c hc => h c (.inl hc), fun c hc => h c (.inr hc)⟩
  · rintro ⟨hv, hw⟩ c (hc | hc)
    · exact hv c hc
    · exact hw c hc

theorem append {v w : Text} (hv : Blanks B v) (hw : Blanks B w) : Blanks B (v ++ w) :=
  append_iff.mpr ⟨hv, hw⟩

theorem not_mem {c : Char} {w : Text} (hw : Blanks B w) (hc : B c = false) : c ∉ w := by
  intro h
  simp [hw c h] at hc

theorem filter_eq_nil {w : Text} (h : Blanks B w) : (w.filter fun c => !B c) = [] := by
  rw [List.filter_eq_nil_iff]
  intro c hc
  simp [h c hc]

theorem of_filter_eq_nil {w : Text} (h : (w.filter fun c => !B c) = []) : Blanks B w := by
  intro c hc
  have := List.filter_eq_nil_iff.mp h c hc
  simpa using this

theorem mono {B' : Char → Bool} {w : Text} (h : ∀ c, B c = true → B' c = true)
    (hw : Blanks B w) : Blanks B' w := fun c hc => h c (hw c hc)

theorem times {w : Text} (hw : Blanks B w) (n : Nat) : Blanks B (Text.times n w) := by
  intro c hc
  simp only [Text.times, List.mem_flatten, List.mem_replicate] at hc
  obtain ⟨l, ⟨-, rfl⟩, hc⟩ := hc
  exact hw c hc

end Blanks

namespace Respaced

/-- Each character either is a blank or stays. -/
theorem filter_eq (h : Respaced B β q s o) :
    (s.filter fun c => !B c) = o.filter fun c => !B c := by
  induction h with
  | blank hg hg' => rw [hg.filter_eq_nil, hg'.filter_eq_nil]
  | char hg hg' hc _ _ ih =>
      rw [List.filter_append, List.filter_append, hg.filter_eq_nil, hg'.filter_eq_nil,
        List.filter_cons_of_pos (by simp [hc]), List.filter_cons_of_pos (by simp [hc]), ih]

theorem blanks_right (h : Respaced B β q s o) (hs : Blanks B s) : Blanks B o :=
  .of_filter_eq_nil (h.filter_eq ▸ hs.filter_eq_nil)

/-- Blanks in front of both texts make the character before them irrelevant. -/
theorem after_blanks {v w : Text} (h : Respaced B β q s o) (hv : Blanks B v) (hw : Blanks B w)
    (hv0 : v ≠ []) (hw0 : w ≠ []) (q' : Option Char) : Respaced B β q' (v ++ s) (w ++ o) := by
  cases h with
  | blank hg hg' => exact .blank (hv.append hg) (hw.append hg')
  | char hg hg' hc _ rest =>
      rw [← List.append_assoc, ← List.append_assoc]
      refine .char (hv.append hg) (hw.append hg') hc ?_ rest
      exact β.allows_present q' _ (by simp [hv0]) (by simp [hw0])

theorem prepend {t : Text} (ht : t ≠ []) (h : Respaced B β t.getLast? s o) (q' : Option Char) :
    Respaced B β q' (t ++ s) (t ++ o) := by
  induction t generalizing q' with
  | nil => exact absurd rfl ht
  | cons c t ih =>
      -- All but the last character of `t` are followed by the same character in both texts.
      have rest : ∀ q₁, (t = [] → q₁ = some c) → Respaced B β q₁ (t ++ s) (t ++ o) := by
        intro q₁ hq
        cases t with
        | nil =>
            rw [hq rfl]
            simpa using h
        | cons d t => exact ih (by simp) (by simpa using h) q₁
      cases hc : B c with
      | true =>
          exact (rest (some c) fun _ => rfl).after_blanks (v := [c]) (w := [c])
            (by simp [Blanks, hc]) (by simp [Blanks, hc]) (by simp) (by simp) q'
      | false =>
          exact Respaced.char .nil .nil hc (β.allows_same q' c false) (rest (some c) fun _ => rfl)

theorem refl (B : Char → Bool) (β : Bonds) (q : Option Char) (t : Text) : Respaced B β q t t := by
  cases t with
  | nil => exact .blank .nil .nil
  | cons c t =>
      have h : Respaced B β q (c :: t ++ []) (c :: t ++ []) :=
        prepend (by simp) (.blank .nil .nil) q
      simpa using h

/-- Blanks put in front of both texts, where both go on with the same character. -/
theorem after_gap {v w : Text} (h : Respaced B β q s o) (hv : Blanks B v) (hw : Blanks B w)
    (head : s.head? = o.head?)
    (allowed : ∀ d, s.head? = some d → B d = false → β.Allows q d (!v.isEmpty) (!w.isEmpty)) :
    Respaced B β q (v ++ s) (w ++ o) := by
  cases h with
  | blank hg hg' => exact .blank (hv.append hg) (hw.append hg')
  | @char _ g g' s o c hg hg' hc _ rest =>
      rw [← List.append_assoc, ← List.append_assoc]
      refine .char (hv.append hg) (hw.append hg') hc ?_ rest
      -- Either both texts start with `c`, or both start with a blank.
      cases g with
      | nil =>
          cases g' with
          | nil => simpa using allowed c (by simp) hc
          | cons d g' =>
              have hd : c = d := by simpa using head
              rw [hd, hg' d (by simp)] at hc
              exact absurd hc (by simp)
      | cons d g =>
          cases g' with
          | nil =>
              have hd : d = c := by simpa using head
              rw [← hd, hg d (by simp)] at hc
              exact absurd hc (by simp)
          | cons d' g' => exact β.allows_present q c (by simp) (by simp)

theorem append_blanks {v w : Text} (h : Respaced B β q s o) (hv : Blanks B v) (hw : Blanks B w) :
    Respaced B β q (s ++ v) (o ++ w) := by
  induction h with
  | blank hg hg' => exact .blank (hg.append hv) (hg'.append hw)
  | char hg hg' hc allowed _ ih =>
      simp only [List.append_assoc, List.cons_append]
      exact .char hg hg' hc allowed ih

/-- Blanks put in front of both texts, where some come in front of the second. -/
theorem after_break {v w : Text} (h : Respaced B β none s o) (hv : Blanks B v) (hw : Blanks B w)
    (hw0 : q ≠ none → w ≠ [])
    (loose : ∀ d, s.head? = some d → β.Allows q d (!v.isEmpty) (!w.isEmpty)) :
    Respaced B β q (v ++ s) (w ++ o) := by
  cases h with
  | blank hg hg' => exact .blank (hv.append hg) (hw.append hg')
  | @char _ g g' s o c hg hg' hc _ rest =>
      rw [← List.append_assoc, ← List.append_assoc]
      refine .char (hv.append hg) (hw.append hg') hc ?_ rest
      intro a ha
      have hw1 : w ≠ [] := hw0 (by simp [ha])
      refine ⟨fun hk h0 => ?_, fun _ h0 => ?_⟩
      · have h0 : v = [] ∧ g = [] := by simpa using h0
        have := (loose c (by simp [h0]) a ha).1 hk (by simp [h0])
        simp [hw1] at this
      · simp [hw1] at h0

theorem drop_blanks {w : Text} (h : Respaced B β q s (o ++ w)) (hw : Blanks B w) :
    Respaced B β q s o := by
  generalize hm : o ++ w = m at h
  induction h generalizing o with
  | blank hg hg' =>
      subst hm
      exact .blank hg (Blanks.append_iff.mp hg').1
  | @char q g g' s o₁ c hg hg' hc allowed _ ih =>
      rcases List.append_eq_append_iff.mp hm with ⟨u, rfl, hu⟩ | ⟨u, rfl, hu⟩
      · exact absurd (hw c (by simp [hu])) (by simp [hc])
      · cases u with
        | nil =>
            have hmem : c ∈ w := by
              rw [List.nil_append] at hu
              simp [← hu]
            exact absurd (hw c hmem) (by simp [hc])
        | cons d u =>
            obtain ⟨rfl, hu'⟩ : c = d ∧ o₁ = u ++ w := by simpa using hu
            exact .char hg hg' hc allowed (ih hu'.symm)

/-- Two respaced pairs of texts one after the other, where blanks are put between the second
ones. -/
theorem append {r r' : Text} (h : Respaced B β q s o) (hr : Respaced B β (s.getLast?.or q) r r')
    (starts : r'.head?.any B = true ∨ Blanks B r)
    (loose : ∀ c d, s.getLast?.or q = some c → r.head? = some d → B d = false → ¬β.keeps c d) :
    Respaced B β q (s ++ r) (o ++ r') := by
  induction h with
  | @blank q g g' hg hg' =>
      cases hr with
      | blank hr hr' => exact .blank (hg.append hr) (hg'.append hr')
      | @char _ g₁ g₁' s₁ o₁ c hg₁ hg₁' hc _ rest =>
          have hg₁0 : g₁' ≠ [] := by
            rintro rfl
            rcases starts with h | h
            · simp [hc] at h
            · exact absurd (by simp) (h.not_mem hc)
          rw [← List.append_assoc, ← List.append_assoc]
          refine .char (hg.append hg₁) (hg'.append hg₁') hc ?_ rest
          intro a ha
          refine ⟨fun hk h0 => ?_, fun _ h0 => ?_⟩
          · have h0 : g = [] ∧ g₁ = [] := by simpa using h0
            exact absurd hk (loose a c (by simp [h0, ha]) (by simp [h0]) hc)
          · simp [hg₁0] at h0
  | @char q g g' s o c hg hg' hc allowed rest ih =>
      simp only [List.append_assoc, List.cons_append]
      have hlast : (g ++ c :: s).getLast?.or q = s.getLast?.or (some c) := by
        cases h : s.getLast? <;> simp [List.getLast?_append, List.getLast?_cons, h]
      rw [hlast] at hr loose
      exact .char hg hg' hc allowed (ih hr loose)

/-- The first character that is no blank, and what comes before and after it, are determined. -/
theorem split_unique {g₁ g₂ s₁ s₂ : Text} {c₁ c₂ : Char} (h : g₁ ++ c₁ :: s₁ = g₂ ++ c₂ :: s₂)
    (hg₁ : Blanks B g₁) (hg₂ : Blanks B g₂) (hc₁ : B c₁ = false) (hc₂ : B c₂ = false) :
    g₁ = g₂ ∧ c₁ = c₂ ∧ s₁ = s₂ := by
  induction g₁ generalizing g₂ with
  | nil =>
      cases g₂ with
      | nil => simpa using h
      | cons d g₂ =>
          obtain ⟨rfl, -⟩ : c₁ = d ∧ _ := by simpa using h
          exact absurd (by simp) (hg₂.not_mem hc₁)
  | cons d g₁ ih =>
      cases g₂ with
      | nil =>
          obtain ⟨rfl, -⟩ : d = c₂ ∧ _ := by simpa using h
          exact absurd (by simp) (hg₁.not_mem hc₂)
      | cons e g₂ =>
          obtain ⟨rfl, h'⟩ : d = e ∧ g₁ ++ c₁ :: s₁ = g₂ ++ c₂ :: s₂ := by simpa using h
          have := ih h' (Blanks.cons_iff.mp hg₁).2 (Blanks.cons_iff.mp hg₂).2
          simpa using this

theorem trans {r : Text} (h : Respaced B β q s o) (h' : Respaced B β q o r) :
    Respaced B β q s r := by
  induction h generalizing r with
  | blank hg hg' => exact .blank hg (h'.blanks_right hg')
  | @char q g g' s o c hg hg' hc allowed _ ih =>
      generalize hm : g' ++ c :: o = m at h'
      cases h' with
      | blank hm' _ =>
          subst hm
          exact absurd (by simp) (hm'.not_mem hc)
      | @char _ g₁ g₁' s₁ o₁ c₁ hg₁ hg₁' hc₁ allowed₁ rest₁ =>
          obtain ⟨rfl, rfl, rfl⟩ := split_unique hm hg' hg₁ hc hc₁
          exact .char hg hg₁' hc (allowed.trans allowed₁) (ih rest₁)

/-- A character that is no blank is found again, with what comes before and after it respaced. -/
theorem split_char {a b : Text} {c : Char} (hc : B c = false) (h : Respaced B β q (a ++ c :: b) o) :
    ∃ a' b', o = a' ++ c :: b' ∧ Respaced B β q a a' ∧ Respaced B β (some c) b b' ∧
      (a = [] → β.Allows q c false (!a'.isEmpty)) := by
  generalize hm : a ++ c :: b = m at h
  induction h generalizing a with
  | blank hg hg' =>
      subst hm
      exact absurd (by simp) (hg.not_mem hc)
  | @char q g g' s o d hg hg' hd allowed rest ih =>
      rcases List.append_eq_append_iff.mp hm with ⟨u, rfl, hu⟩ | ⟨u, rfl, hu⟩
      · cases u with
        | nil =>
            obtain ⟨rfl, rfl⟩ : c = d ∧ b = s := by simpa using hu
            rw [List.append_nil] at hg allowed
            refine ⟨g', o, rfl, .blank hg hg', rest, ?_⟩
            rintro rfl
            exact allowed
        | cons e u =>
            obtain ⟨rfl, -⟩ : c = e ∧ _ := by simpa using hu
            exact absurd (by simp) (hg.not_mem hc)
      · cases u with
        | nil =>
            obtain ⟨rfl, rfl⟩ : d = c ∧ s = b := by simpa using hu
            rw [List.append_nil]
            refine ⟨g', o, rfl, .blank hg hg', rest, ?_⟩
            rintro rfl
            exact allowed
        | cons e u =>
            obtain ⟨rfl, rfl⟩ : d = e ∧ s = u ++ c :: b := by simpa using hu
            obtain ⟨a', b', rfl, ha, hb, -⟩ := ih rfl
            exact ⟨g' ++ d :: a', b', by simp, .char hg hg' hd allowed ha, hb, by simp⟩

theorem prepend_blanks {w : Text} (h : Respaced B β none s o) (hw : Blanks B w) :
    Respaced B β none s (w ++ o) := by
  simpa using h.after_break (v := []) (q := none) .nil hw (fun h => absurd rfl h)
    (by simp [Bonds.Allows])

theorem drop_blanks_left {w : Text} (h : Respaced B β none (w ++ s) o) (hw : Blanks B w) :
    Respaced B β none s o := by
  generalize hm : w ++ s = m at h
  cases h with
  | blank hg hg' =>
      rw [← hm] at hg
      exact .blank (Blanks.append_iff.mp hg).2 hg'
  | @char _ g g' s₁ o₁ c hg hg' hc _ rest =>
      rcases List.append_eq_append_iff.mp hm with ⟨u, rfl, rfl⟩ | ⟨u, rfl, hu⟩
      · exact .char (Blanks.append_iff.mp hg).2 hg' hc (by simp [Bonds.Allows]) rest
      · cases u with
        | nil =>
            rw [List.nil_append] at hu
            rw [← hu]
            exact .char (g := []) .nil hg' hc (by simp [Bonds.Allows]) rest
        | cons d u =>
            obtain ⟨rfl, -⟩ : c = d ∧ _ := by simpa using hu
            exact absurd (by simp) (hw.not_mem hc)

end Respaced

section Replacement

variable {needle replacement : Text}

theorem Respaced.replaceAll (hn : Blanks B needle) (hr : Blanks B replacement) (hn0 : needle ≠ [])
    (hr0 : replacement ≠ []) (t : Text) (q : Option Char) :
    Respaced B β q t (Text.replaceAll needle replacement t) := by
  induction t using replaceAll_induction hn0 generalizing q with
  | nil => exact .refl B β q []
  | hit t ih =>
      rw [replaceAll_append_left hn0]
      exact (ih none).after_blanks hn hr hn0 hr0 q
  | miss c t h ih =>
      rw [replaceAll_cons h]
      exact (ih (some c)).prepend (t := [c]) (by simp) q

end Replacement

end EmbeddedMarkup.Text
