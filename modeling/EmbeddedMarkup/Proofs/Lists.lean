import EmbeddedMarkup.Proofs.Outcome
import Mathlib.Data.List.Forall2

/-!
# Lists whose members correspond

Two lists of the same length are in a relation if their members are, place by place
(`List.Forall₂`). A computation done for each member of a list has a result just if it is in this
relation to the list (`mapM_eq_ok_iff`).
-/

namespace EmbeddedMarkup

variable {α β γ δ : Type} {R : α → β → Prop}

theorem forall₂_append_iff {as as' : List α} {bs bs' : List β} (h : as.length = bs.length) :
    List.Forall₂ R (as ++ as') (bs ++ bs') ↔ List.Forall₂ R as bs ∧ List.Forall₂ R as' bs' := by
  induction as generalizing bs with
  | nil => simp [List.length_eq_zero_iff.mp h.symm]
  | cons a as ih =>
      cases bs with
      | nil => simp at h
      | cons b bs =>
          rw [List.cons_append, List.cons_append, List.forall₂_cons, List.forall₂_cons,
            ih (Nat.succ.inj h), and_assoc]

/-- Members at the same place of two lists in relation. -/
theorem forall₂_imp_mem {S : α → β → Prop} {as : List α} {bs : List β} (h : List.Forall₂ R as bs)
    (imp : ∀ a ∈ as, ∀ b ∈ bs, R a b → S a b) : List.Forall₂ S as bs := by
  induction h with
  | nil => exact .nil
  | cons hab _ ih =>
      refine .cons (imp _ (List.mem_cons_self ..) _ (List.mem_cons_self ..) hab) (ih ?_)
      intro a ha b hb
      exact imp a (List.mem_cons_of_mem _ ha) b (List.mem_cons_of_mem _ hb)

theorem forall₂_mem_right {as : List α} {bs : List β} (h : List.Forall₂ R as bs) {b : β}
    (hb : b ∈ bs) : ∃ a ∈ as, R a b := by
  induction h with
  | nil => simp at hb
  | cons hab _ ih =>
      rcases List.mem_cons.mp hb with rfl | hb
      · exact ⟨_, List.mem_cons_self .., hab⟩
      · obtain ⟨a, ha, h⟩ := ih hb
        exact ⟨a, List.mem_cons_of_mem _ ha, h⟩

theorem forall₂_trans {P : β → γ → Prop} {S : α → γ → Prop} {as : List α} {bs : List β}
    {cs : List γ} (hab : List.Forall₂ R as bs) (hbc : List.Forall₂ P bs cs)
    (trans : ∀ a ∈ as, ∀ b ∈ bs, ∀ c, R a b → P b c → S a c) : List.Forall₂ S as cs := by
  induction hab generalizing cs with
  | nil =>
      cases hbc
      exact .nil
  | cons hab _ ih =>
      cases hbc with
      | cons hbc hbcs =>
          refine .cons (trans _ (List.mem_cons_self ..) _ (List.mem_cons_self ..) _ hab hbc) ?_
          exact ih hbcs fun a ha b hb =>
            trans a (List.mem_cons_of_mem _ ha) b (List.mem_cons_of_mem _ hb)

/-- If each step from the first list has its counterpart in the second, so have all together. -/
theorem forall₂_simulate {P : α → γ → Prop} {Q : β → δ → Prop} {S : γ → δ → Prop} {as : List α}
    {bs : List β} {cs : List γ} (h : List.Forall₂ R as bs) (steps : List.Forall₂ P as cs)
    (simulate : ∀ a ∈ as, ∀ b ∈ bs, ∀ c, R a b → P a c → ∃ d, Q b d ∧ S c d) :
    ∃ ds, List.Forall₂ Q bs ds ∧ List.Forall₂ S cs ds := by
  induction h generalizing cs with
  | nil =>
      cases steps
      exact ⟨[], .nil, .nil⟩
  | @cons a b as bs hab _ ih =>
      cases steps with
      | @cons _ c _ cs hac steps =>
          obtain ⟨d, hbd, hcd⟩ :=
            simulate a (List.mem_cons_self ..) b (List.mem_cons_self ..) c hab hac
          obtain ⟨ds, hds, hcds⟩ := ih steps fun a ha b hb =>
            simulate a (List.mem_cons_of_mem _ ha) b (List.mem_cons_of_mem _ hb)
          exact ⟨d :: ds, .cons hbd hds, .cons hcd hcds⟩

theorem exists_forall₂ {as : List α} (h : ∀ a ∈ as, ∃ b, R a b) : ∃ bs, List.Forall₂ R as bs := by
  induction as with
  | nil => exact ⟨[], .nil⟩
  | cons a as ih =>
      obtain ⟨⟨b, hb⟩, has⟩ := List.forall_mem_cons.mp h
      obtain ⟨bs, hbs⟩ := ih has
      exact ⟨b :: bs, .cons hb hbs⟩

theorem mapM_eq_ok_iff {ε : Type} {f : α → Except ε β} {as : List α} {bs : List β} :
    as.mapM f = .ok bs ↔ List.Forall₂ (fun a b => f a = .ok b) as bs := by
  induction as generalizing bs with
  | nil => simp [pure, Except.pure, eq_comm]
  | cons a as ih =>
      rw [List.mapM_cons, bind_eq_ok, List.forall₂_cons_left_iff]
      constructor
      · rintro ⟨b, hb, h⟩
        obtain ⟨bs', hbs', h⟩ := bind_eq_ok.mp h
        exact ⟨b, bs', hb, ih.mp hbs', (pure_eq_ok.mp h).symm⟩
      · rintro ⟨b, bs', hb, hbs', rfl⟩
        exact ⟨b, hb, bind_eq_ok.mpr ⟨bs', ih.mpr hbs', rfl⟩⟩

theorem mapM_eq_error {ε : Type} {f : α → Except ε β} {e : ε} {l : List α}
    (h : ∀ a ∈ l, (∃ b, f a = .ok b) ∨ f a = .error e) (hex : ∃ a ∈ l, f a = .error e) :
    l.mapM f = .error e := by
  induction l with
  | nil => simp at hex
  | cons a l ih =>
      obtain ⟨ha, hl⟩ := List.forall_mem_cons.mp h
      rw [List.mapM_cons]
      rcases ha with ⟨b, hb⟩ | ha
      · have hex' : ∃ a ∈ l, f a = .error e := by simpa [hb] using hex
        rw [hb, ih hl hex']
        rfl
      · rw [ha]
        rfl

end EmbeddedMarkup
