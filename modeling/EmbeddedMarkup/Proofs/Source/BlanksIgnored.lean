import EmbeddedMarkup.Proofs.Source.Flattened
import EmbeddedMarkup.Proofs.Source.Splicing

/-!
# Flattening ignores blanks

Trees that differ only in the blanks of the literals for the formatters are flattened alike
(`flatten_simulates`). The parts of a node are flattened before its first argument, and once more
with it if it is a template; the induction is on the height of one of the trees, so that it covers
the trees that come out of the first time.
-/

namespace EmbeddedMarkup.Source

open Node

namespace Node

variable {fs : List Formatter} {a b k m n p q r : Node} {R : Node → Node → Prop}

theorem same_call {s t : Span} {f g : Node} {as bs : List Node} {ks ls : List (Option Text × Node)}
    (function : f.Same g) (args : List.Forall₂ Same as bs)
    (names : ks.map Prod.fst = ls.map Prod.fst)
    (values : List.Forall₂ Same (ks.map Prod.snd) (ls.map Prod.snd)) :
    (call s f as ks).Same (call t g bs ls) := by
  rw [same_iff]
  constructor
  · rw [kind, kind, args.length_eq, names]
  · exact .cons function ((forall₂_append_iff args.length_eq).mpr ⟨args, values⟩)

end Node

variable {fs : List Formatter} {a b k l m n p q r x : Node} {R : Node → Node → Prop}

/-! ### What flattening keeps -/

theorem flatten_eq_mapParts (h : ∀ s f as ks, n ≠ .call s f as ks) :
    flatten fs n = n.mapParts (flatten fs) := by
  rw [flatten_eq]
  cases hm : n.mapParts (flatten fs) with
  | error e => rfl
  | ok m =>
      obtain ⟨-, hkind, -⟩ := mapParts_eq_ok hm
      apply flatCall_of_not_isChosen
      cases hc : m.isChosen fs with
      | false => rfl
      | true =>
          obtain ⟨_, _, _, _, _, rfl, -⟩ := exists_of_isChosen hc
          obtain ⟨_, _, _, _, rfl, -⟩ := eq_call_of_kind hkind.symm
          exact absurd rfl (h _ _ _ _)

theorem flatten_constant (s : Span) (v : Literal) :
    flatten fs (.constant s v) = .ok (.constant s v) :=
  flatten_eq_mapParts (by simp)

theorem flatten_template_eq_ok_iff {s : Span} {ps : List Node} :
    flatten fs (.template s ps) = .ok m ↔
      ∃ qs, m = .template s qs ∧ List.Forall₂ (fun p q => flatten fs p = .ok q) ps qs := by
  rw [flatten_eq_mapParts (by simp)]
  simp only [mapParts, bind_eq_ok, pure_eq_ok, mapM_eq_ok_iff]
  constructor
  · rintro ⟨qs, hqs, rfl⟩
    exact ⟨qs, rfl, hqs⟩
  · rintro ⟨qs, rfl, hqs⟩
    exact ⟨qs, hqs, rfl⟩

theorem kind_flatten (h : flatten fs n = .ok m) :
    m.kind = n.kind ∨ ∃ i j names, n.kind = .call i names ∧ m.kind = .call j names := by
  obtain ⟨k, -, hm, hkind, -, -⟩ := flatten_eq_ok h
  rcases flatCall_eq_ok hm with ⟨-, rfl⟩ | ⟨s, f, t, u, k, as, ks, rfl, -, rfl⟩ |
    ⟨s, f, t, ps, qs, as, ks, rfl, -, -, rfl⟩
  · exact .inl hkind
  · exact .inr ⟨_, _, _, hkind.symm, rfl⟩
  · exact .inl hkind

theorem literal_flatten (h : flatten fs n = .ok m) :
    m.isText = n.isText ∧ m.isTemplate = n.isTemplate ∧ m.isBlankText = n.isBlankText := by
  rcases kind_flatten h with hkind | ⟨i, j, names, hn, hm⟩
  · exact ⟨isText_congr hkind, isTemplate_congr hkind, isBlankText_congr hkind⟩
  · obtain ⟨_, _, _, _, rfl, -⟩ := eq_call_of_kind hn
    obtain ⟨_, _, _, _, rfl, -⟩ := eq_call_of_kind hm
    exact ⟨rfl, rfl, rfl⟩

theorem calledName?_flatten (h : flatten fs n = .ok m) : m.calledName? = n.calledName? := by
  cases n with
  | member s v id =>
      rw [flatten_eq_mapParts (by simp), mapParts, bind_eq_ok] at h
      obtain ⟨w, hw, h⟩ := h
      obtain rfl := pure_eq_ok.mp h
      rcases kind_flatten hw with hkind | ⟨i, j, names, hvkind, hwkind⟩
      · cases v <;> cases w <;> simp_all [kind, calledName?]
      · obtain ⟨_, _, _, _, rfl, -⟩ := eq_call_of_kind hvkind
        obtain ⟨_, _, _, _, rfl, -⟩ := eq_call_of_kind hwkind
        rfl
  | name | call | constant | template | expression | group =>
      rcases kind_flatten h with hkind | ⟨i, j, names, hn, hm⟩
      · cases m <;> simp_all [kind, calledName?]
      · cases m <;> simp_all [kind, calledName?]

theorem isChosen_mapParts (h : n.mapParts (flatten fs) = .ok m) :
    m.isChosen fs = n.isChosen fs := by
  obtain ⟨-, hkind, hparts⟩ := mapParts_eq_ok h
  cases n with
  | call s f as ks =>
      cases as with
      | nil =>
          obtain ⟨_, _, as, _, rfl, hlength, -⟩ := eq_call_of_kind hkind
          obtain rfl := List.length_eq_zero_iff.mp hlength
          rfl
      | cons l as =>
          obtain ⟨f', l', _, _, rfl, hf, hl, -⟩ := mapParts_call_eq_ok_iff.mp h
          obtain ⟨htext, htemplate, -⟩ := literal_flatten hl
          simp only [isChosen]
          rw [select?_congr (calledName?_flatten hf) htext htemplate]
  | name | member | constant | template | expression | group =>
      cases m <;> simp_all [kind, isChosen]

/-! ### Respaced trees are flattened alike -/

/-- If the first tree can be flattened, so can the second, to the same. -/
def Simulates (fs : List Formatter) (a b : Node) : Prop :=
  ∀ m, flatten fs a = .ok m → ∃ n, flatten fs b = .ok n ∧ m.Same n

theorem exists_flattened_parts {qs ds : List Node}
    (h : List.Forall₂ (fun q d => flatten fs q = .ok d) (qs.filter (!·.isBlankText)) ds) :
    ∃ es, List.Forall₂ (fun q d => flatten fs q = .ok d) qs es ∧
      es.filter (!·.isBlankText) = ds := by
  induction qs generalizing ds with
  | nil => exact ⟨[], .nil, by simpa using h⟩
  | cons q qs ih =>
      by_cases hq : q.isBlankText = true
      · rw [List.filter_cons_of_neg (by simp [hq])] at h
        obtain ⟨es, hes, hds⟩ := ih h
        refine ⟨q :: es, .cons ?_ hes, ?_⟩
        · unfold isBlankText at hq
          split at hq
          · exact flatten_constant _ _
          · cases hq
        · rw [List.filter_cons_of_neg (by simp [hq]), hds]
      · rw [List.filter_cons_of_pos (by simp [hq])] at h
        obtain ⟨d, ds', hd, hds', rfl⟩ := List.forall₂_cons_left_iff.mp h
        obtain ⟨es, hes, hds⟩ := ih hds'
        refine ⟨d :: es, .cons hd hes, ?_⟩
        rw [List.filter_cons_of_pos (by simp [(literal_flatten hd).2.2, hq]), hds]

theorem exists_flatten_literal {l' : Node} (h : LiteralRespaced (Respaced fs) l x)
    (hl : flatten fs l = .ok l')
    (lower : ∀ p ∈ l.children, ∀ q, Respaced fs p q → Simulates fs p q) :
    ∃ x', flatten fs x = .ok x' ∧ LiteralRespaced Same l' x' := by
  cases h with
  | text blanks =>
      rw [flatten_constant] at hl
      obtain rfl := Except.ok.inj hl
      exact ⟨_, flatten_constant _ _, .text blanks⟩
  | @template s t ps qs parts =>
      obtain ⟨ps', rfl, hps⟩ := flatten_template_eq_ok_iff.mp hl
      have hblank : ∀ p p', flatten fs p = .ok p' →
          ((!p.isBlankText) = true ↔ (!p'.isBlankText) = true) :=
        fun p p' hp => by rw [(literal_flatten hp).2.2]
      have hfilter := List.rel_filter (R := fun p q => flatten fs p = .ok q)
        (fun p p' => hblank p p') hps
      obtain ⟨ds, hds, hsame⟩ := forall₂_simulate (Q := fun q d => flatten fs q = .ok d)
        (S := PartRespaced Same) parts hfilter fun p hp q _ p' hpq hp' => by
          cases hpq with
          | text blanks =>
              rw [flatten_constant] at hp'
              obtain rfl := Except.ok.inj hp'
              exact ⟨_, flatten_constant _ _, .text blanks⟩
          | part hpq =>
              obtain ⟨q', hq', h⟩ := lower p (List.mem_of_mem_filter hp) q hpq p' hp'
              exact ⟨q', hq', .part h⟩
      obtain ⟨qs', hqs', rfl⟩ := exists_flattened_parts hds
      exact ⟨_, flatten_template_eq_ok_iff.mpr ⟨qs', rfl, hqs'⟩, .template hsame⟩

theorem exists_flatPart (h : PartRespaced Same p q) (hr : FlatPart (flatten fs) p r)
    (lower : ∀ c ∈ p.children, ∀ d, Respaced fs c d → Simulates fs c d) :
    ∃ r', FlatPart (flatten fs) q r' ∧ r.Same r' := by
  cases h with
  | @text s t u v k blanks =>
      obtain ⟨_, _, hu, rfl⟩ := hr.text_inv
      cases hu
      exact ⟨_, .text t v k, same_iff.mpr ⟨by simp only [kind, blanks], .nil⟩⟩
  | part h =>
      obtain ⟨hkind, hparts⟩ := same_iff.mp h
      cases hr with
      | text s u k =>
          obtain ⟨t, rfl⟩ := eq_constant_of_kind hkind.symm
          exact ⟨_, .text t u k, same_iff.mpr ⟨rfl, .nil⟩⟩
      | part other parts =>
          obtain ⟨-, hrkind, hr⟩ := mapParts_eq_ok parts
          obtain ⟨ds, hds, hsame⟩ := forall₂_simulate (Q := fun q d => flatten fs q = .ok d)
            (S := Same) hparts hr fun c hc d _ c' hcd => lower c hc d hcd.respaced c'
          obtain ⟨r', hr', hkind', rfl⟩ := exists_mapParts hds
          exact ⟨r', .part (fun v => hkind ▸ other v) hr',
            same_iff.mpr ⟨hrkind.trans (hkind.trans hkind'.symm), hsame⟩⟩

theorem flatCall_simulates {s t : Span} {f g : Node} {as bs : List Node}
    {ks ls : List (Option Text × Node)}
    (chosen : (Formatter.select? fs f l).isSome = true) (function : f.Same g)
    (first : LiteralRespaced Same l x) (args : List.Forall₂ Same as bs)
    (names : ks.map Prod.fst = ls.map Prod.fst)
    (values : List.Forall₂ Same (ks.map Prod.snd) (ls.map Prod.snd))
    (lower : ∀ p ∈ l.children, ∀ c ∈ p.children, ∀ d, Respaced fs c d → Simulates fs c d)
    (hm : flatCall fs (flatten fs) (.call s f (l :: as) ks) = .ok m) :
    ∃ n, flatCall fs (flatten fs) (.call t g (x :: bs) ls) = .ok n ∧ m.Same n := by
  have hfg : Respaced fs f g := function.respaced
  have hx : (Formatter.select? fs g x).isSome = true := by
    rw [← select?_congr hfg.calledName?_eq first.isText_eq first.isTemplate_eq]
    exact chosen
  cases first with
  | @text s' t' u v k blanks =>
      rw [flatCall_text chosen] at hm
      obtain rfl := Except.ok.inj hm
      refine ⟨_, flatCall_text hx, same_call function ?_ names values⟩
      have hfirst : List.Forall₂ Same (flatText s' u k) (flatText t' v k) := by
        unfold flatText
        rw [blanks]
        split
        · exact .nil
        · exact .cons (same_iff.mpr ⟨rfl, .nil⟩) .nil
      exact List.rel_append hfirst args
  | @template s' t' ps qs parts =>
      rw [flatCall_template chosen, bind_eq_ok] at hm
      obtain ⟨rs, hrs, hm⟩ := hm
      obtain rfl := pure_eq_ok.mp hm
      obtain ⟨rs', hrs', hsame⟩ := forall₂_simulate (Q := FlatPart (flatten fs)) (S := Same) parts
        (flatParts_eq_ok_iff.mp hrs) fun p hp q _ r hpq hr =>
          exists_flatPart hpq hr (lower p (List.mem_of_mem_filter hp))
      refine ⟨.call t g (.template t' rs' :: bs) ls, ?_, ?_⟩
      · rw [flatCall_template hx, flatParts_eq_ok_iff.mpr hrs']
        rfl
      · exact same_call function (.cons (same_iff.mpr ⟨rfl, hsame⟩) args) names values

/-- Trees that differ in the blanks of literals for the formatters are flattened to the same. -/
theorem flatten_simulates (h : Respaced fs a b) : Simulates fs a b := by
  induction a using induction_height generalizing b with
  | step a ih =>
      intro m ha
      obtain ⟨k, hk, hm, hkind, hle, hsteps⟩ := flatten_eq_ok ha
      rw [flatten_eq]
      have here : ∀ c ∈ a.children, ∀ d, Respaced fs c d → Simulates fs c d :=
        fun c hc d hcd => ih c (height_lt_of_mem hc) hcd
      cases hc : a.isChosen fs with
      | false =>
          obtain ⟨hab, hparts⟩ := h.of_not_isChosen hc
          obtain ⟨ds, hds, hsame⟩ := forall₂_simulate (Q := fun q d => flatten fs q = .ok d)
            (S := Same) hparts hsteps fun c hc d _ c' hcd => here c hc d hcd c'
          obtain ⟨j, hj, hjkind, rfl⟩ := exists_mapParts hds
          have hkj : k.Same j := same_iff.mpr ⟨hkind.trans (hab.trans hjkind.symm), hsame⟩
          -- Flattening the parts does not make the call one that a formatter is for.
          have hkc : k.isChosen fs = false := (isChosen_mapParts hk).trans hc
          have hjc : j.isChosen fs = false := hkj.respaced.isChosen_eq.symm.trans hkc
          rw [flatCall_of_not_isChosen hkc] at hm
          obtain rfl := Except.ok.inj hm
          exact ⟨j, bind_eq_ok.mpr ⟨j, hj, flatCall_of_not_isChosen hjc⟩, hkj⟩
      | true =>
          obtain ⟨s, f, l, as, ks, rfl, chosen⟩ := exists_of_isChosen hc
          obtain ⟨t, g, x, bs, ls, rfl, hfg, hlx, has, hnames, hvalues⟩ := h.of_isChosen chosen
          obtain ⟨f', l', as', ks', rfl, hf, hl, has', hnames', hvalues'⟩ :=
            mapParts_call_eq_ok_iff.mp hk
          have chosen' := (isChosen_mapParts hk).trans hc
          obtain ⟨inFunction, -, inArgs, inValues⟩ := forall_mem_children_call.mp here
          have hlow : l.height < (call s f (l :: as) ks).height :=
            height_lt_of_mem (by simp [children])
          obtain ⟨g', hg, hfg'⟩ := inFunction g hfg f' hf
          obtain ⟨x', hx, hlx'⟩ := exists_flatten_literal hlx hl fun p hp q hpq =>
            ih p (Nat.lt_trans (height_lt_of_mem hp) hlow) hpq
          obtain ⟨bs', hbs, hsame⟩ := forall₂_simulate (Q := fun q d => flatten fs q = .ok d)
            (S := Same) has has' fun c hc d _ c' hcd => inArgs c hc d hcd c'
          obtain ⟨vs, hvs, hsame'⟩ := forall₂_simulate (Q := fun q d => flatten fs q = .ok d)
            (S := Same) hvalues hvalues' fun c hc d _ c' hcd => inValues c hc d hcd c'
          have hcount : (ls.map Prod.fst).length = vs.length := by simpa using hvs.length_eq
          obtain ⟨ls', hls, rfl⟩ := exists_keywords hcount
          -- The second time it is the flattened literal whose expressions are flattened.
          have hlow' : l'.height < (call s f (l :: as) ks).height :=
            Nat.lt_of_le_of_lt (height_flattenTo_le hl) hlow
          obtain ⟨n, hn, hmn⟩ := flatCall_simulates (t := t) chosen' hfg' hlx' hsame
            (hnames'.trans (hnames.trans hls.symm)) hsame' (fun p hp c hc d hcd => ih c
              (Nat.lt_trans (height_lt_of_mem hc) (Nat.lt_trans (height_lt_of_mem hp) hlow')) hcd)
            hm
          refine ⟨n, bind_eq_ok.mpr ⟨_, mapParts_call_eq_ok_iff.mpr ?_, hn⟩, hmn⟩
          exact ⟨g', x', bs', ls', rfl, hg, hx, hbs, hls, hvs⟩

/-! ### Trees that can be flattened -/

/-- The literals that stand in a template as they are, and not as expressions, are texts. -/
inductive Node.TextParts : Node → Prop where
  | node {n : Node}
      (here : n.isTemplate = true → ∀ c ∈ n.children, ∀ v, c.kind = .constant v →
        ∃ t k, v = .text t k)
      (children : ∀ c ∈ n.children, TextParts c) : TextParts n

theorem textParts_constant (s : Span) (v : Literal) : TextParts (.constant s v) :=
  .node (by simp [isTemplate]) (by simp [Node.children])

theorem Node.TextParts.exists_mapParts (h : n.TextParts)
    (lower : ∀ c ∈ n.children, ∃ d, flatten fs c = .ok d ∧ d.TextParts) :
    ∃ m, n.mapParts (flatten fs) = .ok m ∧ m.kind = n.kind ∧ m.TextParts := by
  obtain ⟨here, -⟩ := h
  obtain ⟨ds, hds⟩ := exists_forall₂ lower
  obtain ⟨m, hm, hkind, rfl⟩ := Node.exists_mapParts (hds.imp fun c d h => h.1)
  refine ⟨m, hm, hkind, .node ?_ ?_⟩
  · intro htemplate d hd v hv
    obtain ⟨c, hc, hcd, -⟩ := forall₂_mem_right hds hd
    rcases kind_flatten hcd with hkind' | ⟨i, j, names, -, hd⟩
    · exact here ((isTemplate_congr hkind).symm.trans htemplate) c hc v (hkind'.symm.trans hv)
    · cases hv.symm.trans hd
  · intro d hd
    obtain ⟨c, hc, -, h⟩ := forall₂_mem_right hds hd
    exact h

theorem Node.TextParts.call {s : Span} {f l : Node} {ls as : List Node}
    {ks : List (Option Text × Node)} (h : TextParts (.call s f (l :: as) ks))
    (hls : ∀ c ∈ ls, c.TextParts) :
    TextParts (.call s f (ls ++ as) ks) := by
  obtain ⟨-, inside⟩ := h
  refine .node (by simp [isTemplate]) fun c hc => ?_
  by_cases hfirst : c ∈ ls
  · exact hls c hfirst
  · apply inside
    simp only [Node.children, List.mem_cons, List.cons_append, List.mem_append] at hc ⊢
    tauto

theorem Node.TextParts.exists_flatParts {s : Span} {ps : List Node} (h : TextParts (.template s ps))
    (lower : ∀ p ∈ ps, ∀ c ∈ p.children, ∃ d, flatten fs c = .ok d ∧ d.TextParts) :
    ∃ qs, flatParts (flatten fs) ps = .ok qs ∧ TextParts (.template s qs) := by
  obtain ⟨here, inside⟩ := h
  have hparts : ∀ p ∈ ps.filter (!·.isBlankText), ∃ q, FlatPart (flatten fs) p q ∧
      q.TextParts ∧ ∀ v, q.kind = .constant v → ∃ t k, v = .text t k := by
    intro p hp
    have hp := List.mem_of_mem_filter hp
    by_cases hconstant : ∃ v, p.kind = .constant v
    · obtain ⟨v, hv⟩ := hconstant
      obtain ⟨t, rfl⟩ := eq_constant_of_kind hv
      obtain ⟨u, k, rfl⟩ := here rfl _ hp v rfl
      refine ⟨_, .text t u k, textParts_constant _ _, fun w hw => ?_⟩
      cases hw
      exact ⟨_, _, rfl⟩
    · have hother : ∀ v, p.kind ≠ .constant v := fun v hv => hconstant ⟨v, hv⟩
      obtain ⟨q, hq, hkind, hqt⟩ := (inside p hp).exists_mapParts (lower p hp)
      exact ⟨q, .part hother hq, hqt, fun v hv => absurd (hkind.symm.trans hv) (hother v)⟩
  obtain ⟨qs, hqs⟩ := exists_forall₂ hparts
  refine ⟨qs, flatParts_eq_ok_iff.mpr (hqs.imp fun p q h => h.1), .node ?_ ?_⟩
  · intro _ q hq v
    obtain ⟨_, _, -, -, h⟩ := forall₂_mem_right hqs hq
    exact h v
  · intro q hq
    obtain ⟨_, _, -, h, -⟩ := forall₂_mem_right hqs hq
    exact h

theorem exists_flatten (fs : List Formatter) (h : n.TextParts) :
    ∃ m, flatten fs n = .ok m ∧ m.TextParts := by
  induction n using induction_height with
  | step n ih =>
      have inside : ∀ c ∈ n.children, c.TextParts := by
        cases h with
        | node _ children => exact children
      obtain ⟨k, hk, hkind, hkt⟩ :=
        h.exists_mapParts fun c hc => ih c (height_lt_of_mem hc) (inside c hc)
      have hle : k.height ≤ n.height := height_mapParts_le (fun c _ d => height_flattenTo_le) hk
      rw [flatten_eq, hk]
      change ∃ m, flatCall fs (flatten fs) k = .ok m ∧ m.TextParts
      cases hc : k.isChosen fs with
      | false => exact ⟨k, flatCall_of_not_isChosen hc, hkt⟩
      | true =>
          rcases cases_of_isChosen hc with ⟨s, f, t, u, k, as, ks, rfl, chosen⟩ |
            ⟨s, f, t, ps, as, ks, rfl, chosen⟩
          · refine ⟨_, flatCall_text chosen, hkt.call fun c hc => ?_⟩
            unfold flatText at hc
            split at hc
            · cases hc
            · rw [List.mem_singleton.mp hc]
              exact textParts_constant _ _
          · have hl : template t ps ∈ (call s f (template t ps :: as) ks).children := by
              simp [children]
            obtain ⟨-, hkc⟩ := hkt
            have hlt := hkc _ hl
            have lower : ∀ p ∈ ps, ∀ c ∈ p.children, ∃ d, flatten fs c = .ok d ∧ d.TextParts := by
              intro p hp c hc
              obtain ⟨-, hps⟩ := hlt
              obtain ⟨-, hcs⟩ := hps p hp
              have hp : p.height < (template t ps).height := height_lt_of_mem hp
              have hcn := Nat.lt_trans (height_lt_of_mem hc) (Nat.lt_trans hp (height_lt_of_mem hl))
              exact ih c (Nat.lt_of_lt_of_le hcn hle) (hcs c hc)
            obtain ⟨qs, hqs, hqt⟩ := hlt.exists_flatParts lower
            refine ⟨.call s f ([.template t qs] ++ as) ks, ?_, ?_⟩
            · rw [flatCall_template chosen, hqs]
              rfl
            · exact TextParts.call (.node (by simp [isTemplate]) hkc) (by simpa using hqt)

/-! ### The literals that are formatted -/

/-- A visit of the first tree comes to the second, which stands at the end of the path: the path
tells which of the parts to take at each node. `Job.found_eq` says what a visit does at a node. -/
inductive Job.Visits (job : Job) : Node → List Nat → Node → Prop where
  | root (n : Node) : Visits job n [] n
  | part {n c d : Node} {i : Nat} {path : List Nat} (visited : job.chosen n = .ok none)
      (here : n.children[i]? = some c) (inside : Visits job c path d) : Visits job n (i :: path) d
  /-- The expressions of a template that is formatted are visited on their own. -/
  | expression {n v c d : Node} {f : Formatter} {s t : Span} {ps : List Node} {k : Option Char}
      {spec : Option Node}
      {j i : Nat} {path : List Nat} (chosen : job.chosen n = .ok (some (f, .template s ps)))
      (part : ps[j]? = some (.expression t v k spec))
      (here : (Node.expression t v k spec).children[i]? = some c) (inside : Visits job c path d) :
      Visits job n (1 :: j :: i :: path) d

/-- A visit of the tree formats the literal `l` at the end of the path. -/
def Job.Formats (job : Job) (n : Node) (path : List Nat) (f : Formatter) (l : Node) : Prop :=
  ∃ p c, job.Visits n p c ∧ job.chosen c = .ok (some (f, l)) ∧ path = p ++ [1]

theorem Job.Visits.trans {job : Job} {p q : List Nat} (hab : job.Visits a p b)
    (hbc : job.Visits b q n) : job.Visits a (p ++ q) n := by
  induction hab with
  | root => exact hbc
  | part visited here inside ih => exact .part visited here (ih hbc)
  | expression chosen part here inside ih => exact .expression chosen part here (ih hbc)

theorem Job.exists_formats {job : Job} {found : List Fragment} {x : Fragment}
    (h : job.found n = .ok found) (hx : x ∈ found) :
    ∃ path f l own, job.Formats n path f l ∧ job.foundIn f l = .ok own ∧ x ∈ own := by
  induction n using induction_height generalizing found with
  | step n ih =>
      rw [job.found_eq, bind_eq_ok] at h
      obtain ⟨c, hc, h⟩ := h
      cases c with
      | some c => exact ⟨[1], c.1, c.2, found, ⟨[], n, .root n, hc, rfl⟩, h, hx⟩
      | none =>
          obtain ⟨d, hd, own, hown, hx⟩ := job.exists_of_mem_foundAll h hx
          obtain ⟨i, hi⟩ := List.mem_iff_getElem?.mp hd
          obtain ⟨_, f, l, own, ⟨p, e, hp, he, rfl⟩, hown, hx⟩ := ih d (height_lt_of_mem hd) hown hx
          exact ⟨i :: p ++ [1], f, l, own, ⟨i :: p, e, .part hc hi hp, he, rfl⟩, hown, hx⟩

/-- The trees are equal but for the blanks of the literal at the end of the path. -/
inductive RespacedAt : List Nat → Node → Node → Prop where
  | literal {l m : Node} (h : LiteralRespaced Same l m) : RespacedAt [] l m
  | part {a b c d : Node} {before after before' after' : List Node} {path : List Nat}
      (kind : a.kind = b.kind) (left : a.children = before ++ c :: after)
      (right : b.children = before' ++ d :: after') (hbefore : List.Forall₂ Same before before')
      (hafter : List.Forall₂ Same after after') (inside : RespacedAt path c d) :
      RespacedAt (before.length :: path) a b

theorem RespacedAt.cons_inv {i : Nat} {path : List Nat} (h : RespacedAt (i :: path) a b)
    {c : Node} (hc : a.children[i]? = some c) :
    ∃ d before after before' after', a.kind = b.kind ∧ before.length = i ∧
      a.children = before ++ c :: after ∧ b.children = before' ++ d :: after' ∧
      List.Forall₂ Same before before' ∧ List.Forall₂ Same after after' ∧ RespacedAt path c d := by
  cases h with
  | part kind left right hbefore hafter inside =>
      rw [left, List.getElem?_append_right (Nat.le_refl _), Nat.sub_self, List.getElem?_cons_zero,
        Option.some.injEq] at hc
      subst hc
      exact ⟨_, _, _, _, _, kind, rfl, left, right, hbefore, hafter, inside⟩

/-- A change further down is a change of the whole. -/
theorem RespacedAt.respaced_of_part {i : Nat} {path : List Nat} (h : RespacedAt (i :: path) a b)
    {c : Node} (hc : a.children[i]? = some c)
    (inside : ∀ d, RespacedAt path c d → Respaced fs c d) : Respaced fs a b := by
  obtain ⟨d, before, after, before', after', kind, -, left, right, hbefore, hafter, hcd⟩ :=
    h.cons_inv hc
  refine .node kind ?_
  rw [left, right]
  exact List.rel_append (hbefore.imp fun _ _ => Same.respaced)
    (.cons (inside d hcd) (hafter.imp fun _ _ => Same.respaced))

theorem respaced_of_literal {s : Span} {f : Node} {as : List Node} {ks : List (Option Text × Node)}
    (chosen : (Formatter.select? fs f l).isSome = true)
    (h : RespacedAt [1] (.call s f (l :: as) ks) b) : Respaced fs (.call s f (l :: as) ks) b := by
  obtain ⟨x, before, after, before', after', hkind, hlength, left, right, hbefore, hafter, hlx⟩ :=
    h.cons_inv (c := l) rfl
  obtain ⟨t, g, cs, ls, rfl, hcount, hnames⟩ := eq_call_of_kind hkind.symm
  obtain ⟨y, bs, rfl⟩ := List.exists_cons_of_length_eq_add_one hcount
  obtain ⟨f', rfl⟩ := List.length_eq_one_iff.mp hlength
  obtain ⟨g', rest, hfg, hnil, rfl⟩ := List.forall₂_cons_left_iff.mp hbefore
  obtain rfl := List.forall₂_nil_left_iff.mp hnil
  obtain ⟨rfl, rfl⟩ : f = f' ∧ as ++ ks.map Prod.snd = after := by simpa [children] using left
  obtain ⟨rfl, rfl, rfl⟩ : g = g' ∧ y = x ∧ bs ++ ls.map Prod.snd = after' := by
    simpa [children] using right
  obtain ⟨has, hvalues⟩ := (forall₂_append_iff (Nat.succ.inj hcount).symm).mp hafter
  cases hlx with
  | literal hlx =>
      exact .literal chosen hfg.respaced (hlx.mono fun _ _ => Same.respaced)
        (has.imp fun _ _ => Same.respaced) hnames.symm (hvalues.imp fun _ _ => Same.respaced)

theorem Job.Formats.respaced {job : Job} {path : List Nat} {f : Formatter}
    (h : job.Formats a path f l) (hb : RespacedAt path a b) : Respaced job.formatters a b := by
  obtain ⟨p, c, visits, chosen, rfl⟩ := h
  induction visits generalizing b with
  | root =>
      obtain ⟨_, _, _, _, rfl, hselect⟩ := job.chosen_eq_some chosen
      exact respaced_of_literal (by simp [hselect]) hb
  | part visited here inside ih => exact hb.respaced_of_part here fun d => ih chosen
  | @expression n v c d f s t ps k spec j i path hn part here inside ih =>
      obtain ⟨_, _, _, _, rfl, -⟩ := job.chosen_eq_some hn
      refine hb.respaced_of_part (c := .template s ps) rfl fun l' hl => ?_
      exact hl.respaced_of_part part fun p hp => hp.respaced_of_part here fun d => ih chosen

/-- Both trees are flattened, to trees equal apart from places, or neither is. They are if all
literals that stand in templates are texts. -/
structure FlattenedAlike (fs : List Formatter) (a b : Node) : Prop where
  forward : ∀ m, flatten fs a = .ok m → ∃ n, flatten fs b = .ok n ∧ m.Same n
  backward : ∀ n, flatten fs b = .ok n → ∃ m, flatten fs a = .ok m ∧ m.Same n
  texts : a.TextParts → ∃ m n, flatten fs a = .ok m ∧ flatten fs b = .ok n ∧ m.Same n

theorem Node.Respaced.flattenedAlike (h : Respaced fs a b) : FlattenedAlike fs a b where
  forward := flatten_simulates h
  backward n hn := by
    obtain ⟨m, hm, hnm⟩ := flatten_simulates h.symm n hn
    exact ⟨m, hm, hnm.symm⟩
  texts ha := by
    obtain ⟨m, hm, -⟩ := exists_flatten fs ha
    obtain ⟨n, hn, hmn⟩ := flatten_simulates h m hm
    exact ⟨m, n, hm, hn, hmn⟩

/-- Whatever formatting may change in the blanks of a literal makes no difference to flattening. All
fragments, also those in the expressions of templates, are of literals that the visit formats; and
neither other blanks in one of these nor in all literals for the formatters at once matter. -/
theorem flatten_ignores_formatted_blanks (job : Job) (a : Node) :
    (∀ p c found x, job.Visits a p c → job.found c = .ok found → x ∈ found →
      ∃ path f l own, job.Formats a path f l ∧ job.foundIn f l = .ok own ∧ x ∈ own) ∧
    (∀ path f l b, job.Formats a path f l → RespacedAt path a b →
      FlattenedAlike job.formatters a b) ∧
    ∀ b, Respaced job.formatters a b → FlattenedAlike job.formatters a b := by
  refine ⟨fun p c found x visits hfound hx => ?_, fun path f l b formats respaced => ?_,
    fun b respaced => respaced.flattenedAlike⟩
  · obtain ⟨_, f, l, own, ⟨q, d, hq, hd, rfl⟩, hown⟩ := job.exists_formats hfound hx
    exact ⟨p ++ q ++ [1], f, l, own, ⟨p ++ q, d, visits.trans hq, hd, rfl⟩, hown⟩
  · exact (formats.respaced respaced).flattenedAlike

def callWith (args : List Node) : Node := .call {} (.member {} (.name {} ['h', 't']) ['m']) args []

/-- A module with a template that has a blank text, if asked for, and a formatted text in its
expression. -/
def nestedText (blank : List Node) (t : Text) : Node :=
  .group {} .module [callWith [.template {}
    (blank ++
      [.expression {} (callWith [.constant ⟨1, 14, some 1, some 19⟩ (.text t)]) none none])]]

theorem flatten_ignores_formatted_blanks_nested :
    let job := Job.ofSource [.unchanged] "ht.m(f' \x7bht.m(\" x \")\x7d')".toList
    let blank := Node.constant {} (.text [' '])
    let a := nestedText [blank] " x ".toList
    let path := [0, 1, 1, 0, 1]
    (∃ c found x, job.Visits a [0, 1, 1, 0] c ∧ job.found c = .ok found ∧ x ∈ found ∧
      ∃ path f l own, job.Formats a path f l ∧ job.foundIn f l = .ok own ∧ x ∈ own) ∧
    (∃ f l, job.Formats a path f l) ∧
    (RespacedAt path a (nestedText [blank] "x".toList) ∧
      FlattenedAlike job.formatters a (nestedText [blank] "x".toList)) ∧
    (Respaced job.formatters a (nestedText [] "\nx".toList) ∧
      FlattenedAlike job.formatters a (nestedText [] "\nx".toList)) := by
  intro job blank a path
  obtain ⟨recorded, one, all⟩ := flatten_ignores_formatted_blanks job a
  have visits : job.Visits a [0, 1, 1, 0]
      (callWith [.constant ⟨1, 14, some 1, some 19⟩ (.text " x ".toList)]) :=
    .part (i := 0) rfl rfl (.expression (j := 1) (i := 0) rfl rfl rfl (.root _))
  have formats :
      job.Formats a path .unchanged (.constant ⟨1, 14, some 1, some 19⟩ (.text " x ".toList)) :=
    ⟨_, _, visits, rfl, rfl⟩
  have atInner : RespacedAt path a (nestedText [blank] "x".toList) := by
    refine @RespacedAt.part _ _ _ _ [] [] [] [] _ rfl rfl rfl .nil .nil ?_
    refine @RespacedAt.part _ _ _ _ [_] [] [_] [] _ rfl rfl rfl (.cons (same_refl _) .nil) .nil ?_
    refine @RespacedAt.part _ _ _ _ [_] [] [_] [] _ rfl rfl rfl (.cons (same_refl _) .nil) .nil ?_
    refine @RespacedAt.part _ _ _ _ [] [] [] [] _ rfl rfl rfl .nil .nil ?_
    refine @RespacedAt.part _ _ _ _ [_] [] [_] [] _ rfl rfl rfl (.cons (same_refl _) .nil) .nil ?_
    exact .literal (.text rfl)
  have everywhere : Respaced job.formatters a (nestedText [] "\nx".toList) := by
    refine .node rfl (.cons (.literal rfl (.refl _ _) (.template ?_) .nil rfl .nil) .nil)
    refine .cons (.part (.node rfl (.cons ?_ .nil))) .nil
    exact .literal rfl (.refl _ _) (.text rfl) .nil rfl .nil
  exact ⟨⟨_, _, _, visits, rfl, List.mem_cons_self, recorded _ _ _ _ visits rfl List.mem_cons_self⟩,
    ⟨_, _, formats⟩, ⟨atInner, one _ _ _ _ formats atInner⟩, everywhere, all _ everywhere⟩

end EmbeddedMarkup.Source
