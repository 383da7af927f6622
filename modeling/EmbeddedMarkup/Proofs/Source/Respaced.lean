import EmbeddedMarkup.Proofs.Source.Kind

/-!
# Trees with other blanks in their literals

`Node.Respaced fs a b` says that `a` and `b` are equal apart from places and from blanks in the
literals that one of the formatters `fs` is for: these are first arguments of calls, and either
texts or templates. In a template the blanks of its texts may differ, and there may be more or fewer
texts that are blank altogether. The expressions in it are trees of their own.

Trees that are respaced have the same literals for the formatters, so the relation is an
equivalence.
-/

namespace EmbeddedMarkup.Source.Node

def isBlankText : Node → Bool
  | constant _ (.text t _) => (Text.removeBlanks t).isEmpty
  | _ => false

/-- Whether one of the formatters is for the first argument of a call. -/
def isChosen (fs : List Formatter) : Node → Bool
  | call _ function (arg :: _) _ => (Formatter.select? fs function arg).isSome
  | _ => false

/-- Parts of two templates that are texts with other blanks, or in the relation `R`. -/
inductive PartRespaced (R : Node → Node → Prop) : Node → Node → Prop where
  | text {s t : Span} {u v : Text} {k : Bool} (blanks : Text.removeBlanks u = Text.removeBlanks v) :
      PartRespaced R (constant s (.text u k)) (constant t (.text v k))
  | part {p q : Node} (h : R p q) : PartRespaced R p q

/-- Literals with other blanks, where the expressions in them are in the relation `R`. -/
inductive LiteralRespaced (R : Node → Node → Prop) : Node → Node → Prop where
  | text {s t : Span} {u v : Text} {k : Bool} (blanks : Text.removeBlanks u = Text.removeBlanks v) :
      LiteralRespaced R (constant s (.text u k)) (constant t (.text v k))
  | template {s t : Span} {ps qs : List Node}
      (parts : List.Forall₂ (PartRespaced R) (ps.filter (!·.isBlankText))
        (qs.filter (!·.isBlankText))) :
      LiteralRespaced R (template s ps) (template t qs)

/-- Trees that are equal apart from places and from blanks in the literals for the formatters. -/
inductive Respaced (fs : List Formatter) : Node → Node → Prop where
  | node {a b : Node} (kind : a.kind = b.kind)
      (parts : List.Forall₂ (Respaced fs) a.children b.children) : Respaced fs a b
  | literal {s t : Span} {f g l m : Node} {as bs : List Node} {ks ls : List (Option Text × Node)}
      (chosen : (Formatter.select? fs f l).isSome = true) (function : Respaced fs f g)
      (first : LiteralRespaced (Respaced fs) l m) (args : List.Forall₂ (Respaced fs) as bs)
      (names : ks.map Prod.fst = ls.map Prod.fst)
      (values : List.Forall₂ (Respaced fs) (ks.map Prod.snd) (ls.map Prod.snd)) :
      Respaced fs (call s f (l :: as) ks) (call t g (m :: bs) ls)

variable {fs : List Formatter} {a b c f g l m p q : Node} {R S : Node → Node → Prop}

/-! ### What respacing keeps -/

theorem isText_congr (h : a.kind = b.kind) : a.isText = b.isText := by
  cases a with
  | constant s v =>
      obtain ⟨t, rfl⟩ := eq_constant_of_kind h.symm
      cases v <;> rfl
  | name | member | call | template | expression | group =>
      cases b <;> simp_all [kind, isText]

theorem isTemplate_congr (h : a.kind = b.kind) : a.isTemplate = b.isTemplate := by
  cases a <;> cases b <;> simp_all [kind, isTemplate]

theorem isBlankText_congr (h : a.kind = b.kind) : a.isBlankText = b.isBlankText := by
  cases a with
  | constant s v =>
      obtain ⟨t, rfl⟩ := eq_constant_of_kind h.symm
      cases v <;> rfl
  | name | member | call | template | expression | group =>
      cases b <;> simp_all [kind, isBlankText]

theorem exists_of_isChosen (h : a.isChosen fs = true) :
    ∃ s f l as ks, a = call s f (l :: as) ks ∧ (Formatter.select? fs f l).isSome = true := by
  unfold isChosen at h
  split at h
  · exact ⟨_, _, _, _, _, rfl, h⟩
  · cases h

theorem select?_congr (name : f.calledName? = g.calledName?) (text : l.isText = m.isText)
    (template : l.isTemplate = m.isTemplate) :
    Formatter.select? fs f l = Formatter.select? fs g m := by
  simp only [Formatter.select?, Formatter.isFor, name, text, template]

theorem isText_or_isTemplate_of_select? (h : (Formatter.select? fs f l).isSome = true) :
    l.isText = true ∨ l.isTemplate = true := by
  unfold Formatter.select? at h
  split at h
  · simp at h
  · obtain ⟨x, hx⟩ := Option.isSome_iff_exists.mp h
    have := List.find?_some hx
    simp only [Formatter.isFor, Bool.and_eq_true, Bool.or_eq_true] at this
    rcases this.2 with h | h
    · exact .inl h.1
    · exact .inr h.1

theorem cases_of_isChosen (h : a.isChosen fs = true) :
    (∃ s f t u k as ks, a = call s f (constant t (.text u k) :: as) ks ∧
      (Formatter.select? fs f (constant t (.text u k))).isSome = true) ∨
    (∃ s f t ps as ks, a = call s f (template t ps :: as) ks ∧
      (Formatter.select? fs f (template t ps)).isSome = true) := by
  obtain ⟨s, f, l, as, ks, rfl, chosen⟩ := exists_of_isChosen h
  rcases isText_or_isTemplate_of_select? chosen with hl | hl
  · left
    unfold isText at hl
    split at hl
    · exact ⟨s, f, _, _, _, as, ks, rfl, chosen⟩
    · cases hl
  · right
    unfold isTemplate at hl
    split at hl
    · exact ⟨s, f, _, _, as, ks, rfl, chosen⟩
    · cases hl

theorem LiteralRespaced.isText_eq (h : LiteralRespaced R l m) : l.isText = m.isText := by
  cases h <;> rfl

theorem LiteralRespaced.isTemplate_eq (h : LiteralRespaced R l m) :
    l.isTemplate = m.isTemplate := by
  cases h <;> rfl

theorem LiteralRespaced.isBlankText_eq (h : LiteralRespaced R l m) :
    l.isBlankText = m.isBlankText := by
  cases h with
  | text blanks => simp only [isBlankText, blanks]
  | template => rfl

namespace Respaced

theorem kind_eq (h : Respaced fs a b) : a.kind = b.kind := by
  cases h with
  | node kind parts => exact kind
  | literal chosen function first args names values =>
      simp only [kind, List.length_cons, args.length_eq, names]

theorem calledName?_eq (h : Respaced fs f g) : f.calledName? = g.calledName? := by
  have hkind := h.kind_eq
  cases f with
  | name s id =>
      obtain ⟨t, rfl⟩ := eq_name_of_kind hkind.symm
      rfl
  | member s v id =>
      obtain ⟨t, w, rfl⟩ := eq_member_of_kind hkind.symm
      cases h with
      | node kind parts =>
          obtain ⟨hvw, -⟩ := List.forall₂_cons.mp parts
          have hvw := hvw.kind_eq
          cases v <;> cases w <;> simp_all [Node.kind, calledName?]
  | call | constant | template | expression | group =>
      cases g <;> simp_all [Node.kind, calledName?]

/-- Apart from a chosen literal nothing is changed at a node. -/
theorem of_not_isChosen (h : Respaced fs a b) (ha : a.isChosen fs = false) :
    a.kind = b.kind ∧ List.Forall₂ (Respaced fs) a.children b.children := by
  cases h with
  | node kind parts => exact ⟨kind, parts⟩
  | literal chosen => simp [isChosen, chosen] at ha

theorem literalRespaced (h : Respaced fs l m) (hl : l.isText = true ∨ l.isTemplate = true) :
    LiteralRespaced (Respaced fs) l m := by
  have hkind := h.kind_eq
  cases l with
  | constant s v =>
      obtain ⟨t, rfl⟩ := eq_constant_of_kind hkind.symm
      cases v with
      | text u k => exact .text rfl
      | bytes | number | named => simp [isText, isTemplate] at hl
  | template s ps =>
      obtain ⟨t, qs, rfl⟩ := eq_template_of_kind hkind.symm
      obtain ⟨-, parts⟩ := h.of_not_isChosen rfl
      have hfilter : ∀ p q, Respaced fs p q → ((!p.isBlankText) = true ↔ (!q.isBlankText) = true) :=
        fun p q hpq => by rw [isBlankText_congr hpq.kind_eq]
      refine .template ((List.rel_filter (R := Respaced fs) (fun p q => hfilter p q) parts).imp ?_)
      exact fun p q => .part
  | name | member | call | expression | group => simp [isText, isTemplate] at hl

theorem of_isChosen {s : Span} {as : List Node} {ks : List (Option Text × Node)}
    (h : Respaced fs (call s f (l :: as) ks) b)
    (chosen : (Formatter.select? fs f l).isSome = true) :
    ∃ t g m bs ls, b = call t g (m :: bs) ls ∧ Respaced fs f g ∧
      LiteralRespaced (Respaced fs) l m ∧ List.Forall₂ (Respaced fs) as bs ∧
      ks.map Prod.fst = ls.map Prod.fst ∧
      List.Forall₂ (Respaced fs) (ks.map Prod.snd) (ls.map Prod.snd) := by
  cases h with
  | literal chosen function first args names values =>
      exact ⟨_, _, _, _, _, rfl, function, first, args, names, values⟩
  | node kind parts =>
      obtain ⟨t, g, bs, ls, rfl, hlength, hnames⟩ := eq_call_of_kind kind.symm
      obtain ⟨hfg, parts⟩ := List.forall₂_cons.mp parts
      obtain ⟨hargs, hvalues⟩ := (forall₂_append_iff hlength.symm).mp parts
      obtain ⟨m, bs, hlm, hbs, rfl⟩ := List.forall₂_cons_left_iff.mp hargs
      exact ⟨t, g, m, bs, ls, rfl, hfg,
        hlm.literalRespaced (isText_or_isTemplate_of_select? chosen), hbs, hnames.symm, hvalues⟩

end Respaced

/-! ### Respacing is an equivalence -/

theorem Same.respaced (h : a.Same b) : Respaced fs a b := by
  induction a using induction_height generalizing b with
  | step a ih =>
      obtain ⟨hkind, hparts⟩ := same_iff.mp h
      exact .node hkind (forall₂_imp_mem hparts fun c hc d _ => ih c (height_lt_of_mem hc))

theorem same_refl (a : Node) : a.Same a := by
  induction a using induction_height with
  | step a ih =>
      exact same_iff.mpr ⟨rfl, List.forall₂_same.mpr fun c hc => ih c (height_lt_of_mem hc)⟩

theorem PartRespaced.symm (h : PartRespaced R p q) (hR : R p q → R q p) : PartRespaced R q p := by
  cases h with
  | text blanks => exact .text blanks.symm
  | part h => exact .part (hR h)

theorem PartRespaced.trans (hab : PartRespaced R a b) (hbc : PartRespaced R b c)
    (hkind : ∀ p q, R p q → p.kind = q.kind) (hR : R a b → R b c → R a c) :
    PartRespaced R a c := by
  cases hab with
  | text hab =>
      cases hbc with
      | text hbc => exact .text (hab.trans hbc)
      | part hbc =>
          obtain ⟨t, rfl⟩ := eq_constant_of_kind (hkind _ _ hbc).symm
          exact .text hab
  | part hab =>
      cases hbc with
      | text hbc =>
          obtain ⟨t, rfl⟩ := eq_constant_of_kind (hkind _ _ hab)
          exact .text hbc
      | part hbc => exact .part (hR hab hbc)

theorem Same.symm (h : a.Same b) : b.Same a := by
  induction a using induction_height generalizing b with
  | step a ih =>
      obtain ⟨hkind, hparts⟩ := same_iff.mp h
      refine same_iff.mpr ⟨hkind.symm, List.Forall₂.flip (forall₂_imp_mem hparts ?_)⟩
      exact fun c hc d _ => ih c (height_lt_of_mem hc)

theorem LiteralRespaced.mono (h : LiteralRespaced R l m) (hRS : ∀ p q, R p q → S p q) :
    LiteralRespaced S l m := by
  cases h with
  | text blanks => exact .text blanks
  | template parts =>
      refine .template (parts.imp fun p q hpq => ?_)
      cases hpq with
      | text blanks => exact .text blanks
      | part hpq => exact .part (hRS p q hpq)

theorem LiteralRespaced.symm (h : LiteralRespaced R l m)
    (hR : ∀ p ∈ l.children, ∀ q, R p q → R q p) : LiteralRespaced R m l := by
  cases h with
  | text blanks => exact .text blanks.symm
  | @template s t ps qs parts =>
      refine .template (List.Forall₂.flip (forall₂_imp_mem parts fun p hp q _ hpq => ?_))
      exact hpq.symm (hR p (List.mem_of_mem_filter hp) q)

theorem LiteralRespaced.trans (hab : LiteralRespaced R a b) (hbc : LiteralRespaced R b c)
    (hkind : ∀ p q, R p q → p.kind = q.kind)
    (hR : ∀ p ∈ a.children, ∀ q r, R p q → R q r → R p r) : LiteralRespaced R a c := by
  cases hab with
  | text hab =>
      cases hbc with
      | text hbc => exact .text (hab.trans hbc)
  | template hab =>
      cases hbc with
      | template hbc =>
          refine .template (forall₂_trans hab hbc fun p hp q _ r hpq hqr => ?_)
          exact hpq.trans hqr hkind (hR p (List.mem_of_mem_filter hp) q r)

namespace Respaced

theorem refl (fs : List Formatter) (a : Node) : Respaced fs a a := (same_refl a).respaced

theorem isChosen_eq (h : Respaced fs a b) : a.isChosen fs = b.isChosen fs := by
  cases h with
  | literal chosen function first args names values =>
      simp only [isChosen]
      rw [select?_congr function.calledName?_eq first.isText_eq first.isTemplate_eq]
  | node kind parts =>
      cases a with
      | call s f as ks =>
          obtain ⟨t, g, bs, ls, rfl, hlength, -⟩ := eq_call_of_kind kind.symm
          obtain ⟨hfg, parts⟩ := List.forall₂_cons.mp parts
          obtain ⟨hargs, -⟩ := (forall₂_append_iff hlength.symm).mp parts
          cases hargs with
          | nil => rfl
          | cons hlm _ =>
              simp only [isChosen]
              rw [select?_congr hfg.calledName?_eq (isText_congr hlm.kind_eq)
                (isTemplate_congr hlm.kind_eq)]
      | name | member | constant | template | expression | group =>
          cases b <;> simp_all [Node.kind, isChosen]

theorem symm (h : Respaced fs a b) : Respaced fs b a := by
  induction a using induction_height generalizing b with
  | step a ih =>
      have here : ∀ c ∈ a.children, ∀ d, Respaced fs c d → Respaced fs d c :=
        fun c hc d hcd => ih c (height_lt_of_mem hc) hcd
      cases hc : a.isChosen fs with
      | false =>
          obtain ⟨kind, parts⟩ := h.of_not_isChosen hc
          exact .node kind.symm
            (List.Forall₂.flip (forall₂_imp_mem parts fun c hc d _ => here c hc d))
      | true =>
          obtain ⟨s, f, l, as, ks, rfl, chosen⟩ := exists_of_isChosen hc
          obtain ⟨t, g, m, bs, ls, rfl, hfg, hlm, hargs, hnames, hvalues⟩ := h.of_isChosen chosen
          simp only [children, List.mem_cons, List.cons_append, List.mem_append, or_imp,
            forall_and, forall_eq] at here
          obtain ⟨hf, -, has, hks⟩ := here
          refine .literal ?_ (hf g hfg) (hlm.symm fun p hp q hpq => ih p ?_ hpq)
            (List.Forall₂.flip (forall₂_imp_mem hargs fun c hc d _ => has c hc d)) hnames.symm
            (List.Forall₂.flip (forall₂_imp_mem hvalues fun c hc d _ => hks c hc d))
          · rw [← select?_congr hfg.calledName?_eq hlm.isText_eq hlm.isTemplate_eq]
            exact chosen
          · exact Nat.lt_trans (height_lt_of_mem hp) (height_lt_of_mem (by simp [children]))

theorem trans (hab : Respaced fs a b) (hbc : Respaced fs b c) : Respaced fs a c := by
  induction a using induction_height generalizing b c with
  | step a ih =>
      have here : ∀ x ∈ a.children, ∀ y z, Respaced fs x y → Respaced fs y z → Respaced fs x z :=
        fun x hx y z hxy hyz => ih x (height_lt_of_mem hx) hxy hyz
      cases hc : a.isChosen fs with
      | false =>
          obtain ⟨habKind, habParts⟩ := hab.of_not_isChosen hc
          obtain ⟨hbcKind, hbcParts⟩ := hbc.of_not_isChosen (hab.isChosen_eq.symm.trans hc)
          exact .node (habKind.trans hbcKind)
            (forall₂_trans habParts hbcParts fun x hx y _ z => here x hx y z)
      | true =>
          obtain ⟨s, f, l, as, ks, rfl, chosen⟩ := exists_of_isChosen hc
          obtain ⟨t, g, m, bs, ls, rfl, hfg, hlm, has, hnames, hvalues⟩ := hab.of_isChosen chosen
          have hchosen := hab.isChosen_eq.symm.trans hc
          obtain ⟨_, h, n, cs, ms, rfl, hgh, hmn, hbs, hnames', hvalues'⟩ := hbc.of_isChosen hchosen
          simp only [children, List.mem_cons, List.cons_append, List.mem_append, or_imp,
            forall_and, forall_eq] at here
          obtain ⟨hf, -, hargs, hks⟩ := here
          refine .literal chosen (hf g h hfg hgh)
            (hlm.trans hmn (fun p q => kind_eq) fun p hp q r => ih p ?_)
            (forall₂_trans has hbs fun x hx y _ z => hargs x hx y z) (hnames.trans hnames')
            (forall₂_trans hvalues hvalues' fun x hx y _ z => hks x hx y z)
          exact Nat.lt_trans (height_lt_of_mem hp) (height_lt_of_mem (by simp [children]))

end Respaced

end EmbeddedMarkup.Source.Node
