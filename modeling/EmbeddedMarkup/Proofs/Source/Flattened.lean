import EmbeddedMarkup.Proofs.Source.Respaced

/-!
# How a tree is flattened

Flattening is bounded by the height of the tree. Since it makes no tree higher, the bound plays no
part in what comes out, and `flatten_eq` says what that is without it: the parts of a node are
flattened first, then its first argument if a formatter is for it. The expressions of such an
argument are flattened once more.
-/

namespace EmbeddedMarkup.Source

open Node

variable {fs : List Formatter} {g h : Node → Except FlattenError Node} {n m p q : Node}

/-- A text without blanks as an argument, if anything is left of it. -/
def flatText (s : Span) (t : Text) (k : Bool) : List Node :=
  if (Text.removeBlanks t).isEmpty then [] else [.constant s (.text (Text.removeBlanks t) k)]

/-- A part of a template that is not blank, and what it is flattened to. -/
inductive FlatPart (g : Node → Except FlattenError Node) : Node → Node → Prop where
  | text (s : Span) (t : Text) (k : Bool) :
      FlatPart g (.constant s (.text t k)) (.constant s (.text (Text.removeBlanks t) k))
  | part {p q : Node} (other : ∀ v, p.kind ≠ .constant v) (parts : p.mapParts g = .ok q) :
      FlatPart g p q

/-! ### The steps -/

theorem flatParts_blank (hp : p.isBlankText = true) (ps : List Node) :
    flatParts g (p :: ps) = flatParts g ps := by
  unfold isBlankText at hp
  split at hp
  · next s t k =>
      simp only [flatParts, flatLiteral, hp, if_true]
      cases flatParts g ps <;> rfl
  · cases hp

theorem flatParts_text {s : Span} {t : Text} {k : Bool} (ht : (Text.removeBlanks t).isEmpty = false)
    (ps : List Node) :
    flatParts g (.constant s (.text t k) :: ps) = do
      return .constant s (.text (Text.removeBlanks t) k) :: (← flatParts g ps) := by
  simp only [flatParts, flatLiteral, ht, Bool.false_eq_true, if_false]
  rfl

theorem flatParts_other (hp : ∀ v, p.kind ≠ .constant v) (ps : List Node) :
    flatParts g (p :: ps) = do
      let here ← p.mapParts g
      return here :: (← flatParts g ps) := by
  cases p with
  | constant s v => exact absurd rfl (hp v)
  | name | member | call | template | expression | group => rw [flatParts]; simp

theorem FlatPart.text_inv {s : Span} {v : Literal} (hq : FlatPart g (.constant s v) q) :
    ∃ t k, v = .text t k ∧ q = .constant s (.text (Text.removeBlanks t) k) := by
  cases hq with
  | text => exact ⟨_, _, rfl, rfl⟩
  | part other => exact absurd rfl (other v)

theorem FlatPart.other_inv (hp : ∀ v, p.kind ≠ .constant v) (hq : FlatPart g p q) :
    p.mapParts g = .ok q := by
  cases hq with
  | text s t k => exact absurd rfl (hp (.text t k))
  | part _ parts => exact parts

/-- Blank texts are left out, and the other parts are flattened one by one. -/
theorem flatParts_eq_ok_iff {ps qs : List Node} :
    flatParts g ps = .ok qs ↔ List.Forall₂ (FlatPart g) (ps.filter (!·.isBlankText)) qs := by
  induction ps generalizing qs with
  | nil => simp [flatParts, eq_comm]
  | cons p ps ih =>
      by_cases hblank : p.isBlankText = true
      · rw [flatParts_blank hblank, ih, List.filter_cons_of_neg (by simp [hblank])]
      rw [List.filter_cons_of_pos (by simp [hblank]), List.forall₂_cons_left_iff]
      by_cases hp : ∃ v, p.kind = .constant v
      · obtain ⟨v, hv⟩ := hp
        obtain ⟨s, rfl⟩ := eq_constant_of_kind hv
        cases v with
        | text t k =>
            simp only [isBlankText, Bool.not_eq_true] at hblank
            rw [flatParts_text hblank, bind_eq_ok]
            constructor
            · rintro ⟨qs', hqs', hqs⟩
              exact ⟨_, qs', .text s t k, ih.mp hqs', (pure_eq_ok.mp hqs).symm⟩
            · rintro ⟨q, qs', hq, hqs', rfl⟩
              obtain ⟨_, _, ht, rfl⟩ := hq.text_inv
              cases ht
              exact ⟨qs', ih.mpr hqs', rfl⟩
        | bytes t | number t | named t =>
            refine iff_of_false (fun h => by simp [flatParts, flatLiteral, bind_eq_ok] at h) ?_
            rintro ⟨q, _, hq, -⟩
            obtain ⟨_, _, ht, -⟩ := hq.text_inv
            cases ht
      · have hother : ∀ v, p.kind ≠ .constant v := fun v hv => hp ⟨v, hv⟩
        rw [flatParts_other hother, bind_eq_ok]
        constructor
        · rintro ⟨q, hq, hqs⟩
          obtain ⟨qs', hqs', hqs⟩ := bind_eq_ok.mp hqs
          exact ⟨q, qs', .part hother hq, ih.mp hqs', (pure_eq_ok.mp hqs).symm⟩
        · rintro ⟨q, qs', hq, hqs', rfl⟩
          exact ⟨q, hq.other_inv hother, bind_eq_ok.mpr ⟨qs', ih.mpr hqs', rfl⟩⟩

theorem flatCall_of_not_isChosen (hn : n.isChosen fs = false) : flatCall fs g n = .ok n := by
  unfold flatCall
  split
  · next s f l as ks =>
      simp only [isChosen, Option.isSome_eq_false_iff, Option.isNone_iff_eq_none] at hn
      simp [hn]
  · rfl

theorem flatCall_text {s t : Span} {f : Node} {u : Text} {k : Bool} {as : List Node}
    {ks : List (Option Text × Node)}
    (chosen : (Formatter.select? fs f (.constant t (.text u k))).isSome = true) :
    flatCall fs g (.call s f (.constant t (.text u k) :: as) ks) =
      .ok (.call s f (flatText t u k ++ as) ks) := by
  obtain ⟨x, hx⟩ := Option.isSome_iff_exists.mp chosen
  simp only [flatCall, hx, flatLiteral, flatText]
  split <;> rfl

theorem flatCall_template {s t : Span} {f : Node} {ps as : List Node}
    {ks : List (Option Text × Node)}
    (chosen : (Formatter.select? fs f (.template t ps)).isSome = true) :
    flatCall fs g (.call s f (.template t ps :: as) ks) = do
      return .call s f (.template t (← flatParts g ps) :: as) ks := by
  obtain ⟨x, hx⟩ := Option.isSome_iff_exists.mp chosen
  simp only [flatCall, hx]

/-- The three things that can be done at a node. -/
theorem flatCall_eq_ok (h : flatCall fs g n = .ok m) :
    (n.isChosen fs = false ∧ m = n) ∨
    (∃ s f t u k as ks, n = .call s f (.constant t (.text u k) :: as) ks ∧
      (Formatter.select? fs f (.constant t (.text u k))).isSome = true ∧
      m = .call s f (flatText t u k ++ as) ks) ∨
    (∃ s f t ps qs as ks, n = .call s f (.template t ps :: as) ks ∧
      (Formatter.select? fs f (.template t ps)).isSome = true ∧
      List.Forall₂ (FlatPart g) (ps.filter (!·.isBlankText)) qs ∧
      m = .call s f (.template t qs :: as) ks) := by
  cases hn : n.isChosen fs with
  | false =>
      rw [flatCall_of_not_isChosen hn] at h
      exact .inl ⟨rfl, (Except.ok.inj h).symm⟩
  | true =>
      right
      rcases cases_of_isChosen hn with ⟨s, f, t, u, k, as, ks, rfl, chosen⟩ |
        ⟨s, f, t, ps, as, ks, rfl, chosen⟩
      · rw [flatCall_text chosen] at h
        exact .inl ⟨s, f, t, u, k, as, ks, rfl, chosen, (Except.ok.inj h).symm⟩
      · rw [flatCall_template chosen, bind_eq_ok] at h
        obtain ⟨qs, hqs, h⟩ := h
        exact .inr ⟨s, f, t, ps, qs, as, ks, rfl, chosen, flatParts_eq_ok_iff.mp hqs,
          (pure_eq_ok.mp h).symm⟩

/-! ### The bound of the recursion -/

theorem height_le_iff : m.height ≤ n.height ↔ ∀ c ∈ m.children, c.height < n.height := by
  rw [height_eq m, Nat.succ_le_iff, Nat.lt_iff_le_pred n.height_pos, heightAll_le_iff]
  refine forall₂_congr fun c _ => ?_
  rw [Nat.lt_iff_le_pred n.height_pos]

theorem height_mapParts_le (hg : ∀ c ∈ n.children, ∀ d, g c = .ok d → d.height ≤ c.height)
    (h : n.mapParts g = .ok m) : m.height ≤ n.height := by
  obtain ⟨-, -, parts⟩ := mapParts_eq_ok h
  rw [height_le_iff]
  intro d hd
  obtain ⟨c, hc, hcd⟩ := forall₂_mem_right parts hd
  exact Nat.lt_of_le_of_lt (hg c hc d hcd) (height_lt_of_mem hc)

theorem height_flatPart_le (hg : ∀ c ∈ p.children, ∀ d, g c = .ok d → d.height ≤ c.height)
    (h : FlatPart g p q) : q.height ≤ p.height := by
  cases h with
  | text s t => simp [height]
  | part _ parts => exact height_mapParts_le hg parts

theorem height_call_le {s : Span} {f l : Node} {ls as : List Node} {ks : List (Option Text × Node)}
    (h : ∀ c ∈ ls, c.height ≤ l.height) :
    (call s f (ls ++ as) ks).height ≤ (call s f (l :: as) ks).height := by
  rw [height_le_iff]
  intro c hc
  by_cases hfirst : c ∈ ls
  · have hl : l.height < (call s f (l :: as) ks).height := height_lt_of_mem (by simp [children])
    exact Nat.lt_of_le_of_lt (h c hfirst) hl
  · apply height_lt_of_mem
    simp only [children, List.mem_cons, List.cons_append, List.mem_append] at hc ⊢
    tauto

theorem height_flatCall_le (hg : ∀ c, c.height < n.height → ∀ d, g c = .ok d → d.height ≤ c.height)
    (h : flatCall fs g n = .ok m) : m.height ≤ n.height := by
  rcases flatCall_eq_ok h with ⟨-, rfl⟩ | ⟨s, f, t, u, k, as, ks, rfl, -, rfl⟩ |
    ⟨s, f, t, ps, qs, as, ks, rfl, -, hqs, rfl⟩
  · exact Nat.le_refl _
  · apply height_call_le
    intro c hc
    unfold flatText at hc
    split at hc
    · cases hc
    · obtain rfl := List.mem_singleton.mp hc
      exact Nat.le_refl 1
  · have hl : (template t ps).height < (call s f (template t ps :: as) ks).height :=
      height_lt_of_mem (by simp [children])
    suffices h : ∀ c ∈ [template t qs], c.height ≤ (template t ps).height from height_call_le h
    intro c hc
    obtain rfl := List.mem_singleton.mp hc
    rw [height_le_iff]
    intro q hq
    obtain ⟨p, hp, hpq⟩ := forall₂_mem_right hqs hq
    have hp : p.height < (template t ps).height := height_lt_of_mem (List.mem_of_mem_filter hp)
    refine Nat.lt_of_le_of_lt (height_flatPart_le (fun c hc => hg c ?_) hpq) hp
    exact Nat.lt_trans (height_lt_of_mem hc) (Nat.lt_trans hp hl)

theorem height_flattenTo_le {k : Nat} (h : flattenTo fs k n = .ok m) : m.height ≤ n.height := by
  induction k generalizing n m with
  | zero =>
      obtain rfl := Except.ok.inj h
      exact Nat.le_refl _
  | succ k ih =>
      obtain ⟨n', hn', h⟩ := bind_eq_ok.mp h
      exact Nat.le_trans (height_flatCall_le (fun c _ d => ih) h)
        (height_mapParts_le (fun c _ d => ih) hn')

theorem flatParts_congr {ps : List Node} (hg : ∀ p ∈ ps, ∀ c ∈ p.children, g c = h c) :
    flatParts g ps = flatParts h ps := by
  induction ps with
  | nil => rfl
  | cons p ps ih =>
      obtain ⟨hp, hps⟩ := List.forall_mem_cons.mp hg
      by_cases hconstant : ∃ v, p.kind = .constant v
      · obtain ⟨v, hv⟩ := hconstant
        obtain ⟨s, rfl⟩ := eq_constant_of_kind hv
        rw [flatParts, flatParts, ih hps]
      · have hother : ∀ v, p.kind ≠ .constant v := fun v hv => hconstant ⟨v, hv⟩
        rw [flatParts_other hother, flatParts_other hother, mapParts_congr hp, ih hps]

theorem flatCall_congr (hg : ∀ c, c.height < n.height → g c = h c) :
    flatCall fs g n = flatCall fs h n := by
  cases hn : n.isChosen fs with
  | false => rw [flatCall_of_not_isChosen hn, flatCall_of_not_isChosen hn]
  | true =>
      rcases cases_of_isChosen hn with ⟨s, f, t, u, k, as, ks, rfl, chosen⟩ |
        ⟨s, f, t, ps, as, ks, rfl, chosen⟩
      · rw [flatCall_text chosen, flatCall_text chosen]
      · rw [flatCall_template chosen, flatCall_template chosen, flatParts_congr]
        intro p hp c hc
        apply hg
        have hl : (template t ps).height < (call s f (template t ps :: as) ks).height :=
          height_lt_of_mem (by simp [children])
        have hp : p.height < (template t ps).height := height_lt_of_mem hp
        exact Nat.lt_trans (height_lt_of_mem hc) (Nat.lt_trans hp hl)

theorem flattenTo_eq_of_le {j k : Nat} (hj : n.height ≤ j) (hk : n.height ≤ k) :
    flattenTo fs j n = flattenTo fs k n := by
  induction n using induction_height generalizing j k with
  | step n ih =>
      obtain ⟨j, rfl⟩ :=
        Nat.exists_eq_succ_of_ne_zero (Nat.ne_zero_of_lt (Nat.lt_of_lt_of_le n.height_pos hj))
      obtain ⟨k, rfl⟩ :=
        Nat.exists_eq_succ_of_ne_zero (Nat.ne_zero_of_lt (Nat.lt_of_lt_of_le n.height_pos hk))
      have lower : ∀ c : Node, c.height < n.height → flattenTo fs j c = flattenTo fs k c :=
        fun c hc => ih c hc (by omega) (by omega)
      rw [flattenTo, flattenTo, mapParts_congr fun c hc => lower c (height_lt_of_mem hc)]
      cases hm : n.mapParts (flattenTo fs k) with
      | error e => rfl
      | ok m =>
          have hle : m.height ≤ n.height := height_mapParts_le (fun c _ d => height_flattenTo_le) hm
          exact flatCall_congr fun c hc => lower c (Nat.lt_of_lt_of_le hc hle)

/-- A tree is flattened from below: first its parts, then the first argument of a call. -/
theorem flatten_eq (n : Node) :
    flatten fs n = n.mapParts (flatten fs) >>= flatCall fs (flatten fs) := by
  have lower : ∀ c : Node, c.height < n.height → flattenTo fs n.height c = flatten fs c :=
    fun c hc => flattenTo_eq_of_le (Nat.le_of_lt hc) (Nat.le_refl _)
  have hn : flatten fs n = flattenTo fs (n.height + 1) n :=
    flattenTo_eq_of_le (Nat.le_refl _) (Nat.le_succ _)
  rw [hn, flattenTo, mapParts_congr fun c hc => lower c (height_lt_of_mem hc)]
  cases hm : n.mapParts (flatten fs) with
  | error e => rfl
  | ok m =>
      have hle : m.height ≤ n.height := height_mapParts_le (fun c _ d => height_flattenTo_le) hm
      exact flatCall_congr fun c hc => lower c (Nat.lt_of_lt_of_le hc hle)

theorem flatten_eq_ok (h : flatten fs n = .ok m) :
    ∃ k, n.mapParts (flatten fs) = .ok k ∧ flatCall fs (flatten fs) k = .ok m ∧
      k.kind = n.kind ∧ k.height ≤ n.height ∧
      List.Forall₂ (fun c d => flatten fs c = .ok d) n.children k.children := by
  rw [flatten_eq] at h
  obtain ⟨k, hk, h⟩ := bind_eq_ok.mp h
  obtain ⟨-, kind, parts⟩ := mapParts_eq_ok hk
  exact ⟨k, hk, h, kind, height_mapParts_le (fun c _ d => height_flattenTo_le) hk, parts⟩

end EmbeddedMarkup.Source
