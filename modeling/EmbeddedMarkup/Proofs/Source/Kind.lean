import EmbeddedMarkup.Proofs.Lists
import EmbeddedMarkup.Proofs.Source.Visit
import EmbeddedMarkup.Source.Flatten

/-!
# Nodes as a kind with parts

A node is its place, its kind and its parts. Whatever treats all nodes alike is said once in these
terms: two trees are equal apart from places if the kinds are and the parts are in turn
(`Node.same_iff`), the height of a tree is one more than that of its parts (`Node.height_eq`), and
`Node.mapParts` keeps place and kind (`Node.mapParts_eq_ok`). The list of parts is `Node.children`.
-/

namespace EmbeddedMarkup.Source.Node

/-- What a node is, apart from its place and its parts. -/
inductive Kind where
  | name (id : Text)
  | member (id : Text)
  | call (args : Nat) (keywords : List (Option Text))
  | constant (value : Literal)
  | template
  | expression (conversion : Option Char) (hasSpec : Bool)
  | group (label : Label)
  deriving DecidableEq, Repr

def kind : Node → Kind
  | name _ id => .name id
  | member _ _ id => .member id
  | call _ _ args keywords => .call args.length (keywords.map Prod.fst)
  | constant _ value => .constant value
  | template .. => .template
  | expression _ _ conversion spec => .expression conversion spec.isSome
  | group _ label _ => .group label

variable {a b n m : Node}

section Inversion

theorem eq_constant_of_kind {v : Literal} (h : n.kind = .constant v) : ∃ s, n = constant s v := by
  cases n <;> simp_all [kind]

theorem eq_template_of_kind (h : n.kind = .template) : ∃ s ps, n = template s ps := by
  cases n <;> simp_all [kind]

theorem eq_name_of_kind {id : Text} (h : n.kind = .name id) : ∃ s, n = name s id := by
  cases n <;> simp_all [kind]

theorem eq_member_of_kind {id : Text} (h : n.kind = .member id) : ∃ s v, n = member s v id := by
  cases n <;> simp_all [kind]

theorem eq_call_of_kind {k : Nat} {ks : List (Option Text)} (h : n.kind = .call k ks) :
    ∃ s f as ls, n = call s f as ls ∧ as.length = k ∧ ls.map Prod.fst = ks := by
  cases n <;> simp_all [kind]

end Inversion

/-! ### Trees that are equal apart from places -/

/-- The two trees are equal apart from places. -/
def Same (a b : Node) : Prop := a.same b = true

theorem sameAll_iff {as bs : List Node} : sameAll as bs = true ↔ List.Forall₂ Same as bs := by
  induction as generalizing bs with
  | nil => cases bs <;> simp [sameAll]
  | cons a as ih => cases bs <;> simp [sameAll, ih, Same]

theorem sameKeywords_iff {ks ls : List (Option Text × Node)} :
    sameKeywords ks ls = true ↔
      ks.map Prod.fst = ls.map Prod.fst ∧
      List.Forall₂ Same (ks.map Prod.snd) (ls.map Prod.snd) := by
  induction ks generalizing ls with
  | nil => cases ls <;> simp [sameKeywords]
  | cons k ks ih =>
      cases ls with
      | nil => simp [sameKeywords]
      | cons l ls =>
          obtain ⟨k, a⟩ := k
          obtain ⟨l, b⟩ := l
          simp only [sameKeywords, Bool.and_eq_true, beq_iff_eq, ih, List.map_cons, List.cons.injEq,
            List.forall₂_cons, Same]
          tauto

theorem sameOption_iff {o p : Option Node} :
    sameOption o p = true ↔ o.isSome = p.isSome ∧ List.Forall₂ Same o.toList p.toList := by
  cases o <;> cases p <;> simp [sameOption, Same]

theorem same_iff : a.Same b ↔ a.kind = b.kind ∧ List.Forall₂ Same a.children b.children := by
  cases a <;> cases b
  case call.call s f as ks t g bs ls =>
      simp only [Same, same, Bool.and_eq_true, kind, children, Kind.call.injEq, List.forall₂_cons]
      rw [sameAll_iff, sameKeywords_iff]
      constructor
      · rintro ⟨⟨hf, has⟩, hnames, hks⟩
        exact ⟨⟨has.length_eq, hnames⟩, hf, (forall₂_append_iff has.length_eq).mpr ⟨has, hks⟩⟩
      · rintro ⟨⟨hlength, hnames⟩, hf, h⟩
        obtain ⟨has, hks⟩ := (forall₂_append_iff hlength).mp h
        exact ⟨⟨hf, has⟩, hnames, hks⟩
  case expression.expression s v c o t w d p =>
      simp only [Same, same, Bool.and_eq_true, beq_iff_eq, kind, children, Kind.expression.injEq,
        List.forall₂_cons]
      rw [sameOption_iff]
      tauto
  all_goals simp [Same, same, kind, children, sameAll_iff]

theorem forall_mem_children_call {P : Node → Prop} {s : Span} {f l : Node} {as : List Node}
    {ks : List (Option Text × Node)} :
    (∀ c ∈ (call s f (l :: as) ks).children, P c) ↔
      P f ∧ P l ∧ (∀ c ∈ as, P c) ∧ ∀ c ∈ ks.map Prod.snd, P c := by
  simp only [children, List.mem_cons, List.cons_append, List.mem_append, or_imp, forall_and,
    forall_eq]

/-! ### The height of a tree -/

theorem heightAll_le_iff {ns : List Node} {h : Nat} :
    heightAll ns ≤ h ↔ ∀ n ∈ ns, n.height ≤ h := by
  induction ns with
  | nil => simp [heightAll]
  | cons n ns ih => simp only [heightAll, Nat.max_le, List.forall_mem_cons, ih]

theorem heightAll_append (ms ns : List Node) :
    heightAll (ms ++ ns) = max (heightAll ms) (heightAll ns) := by
  induction ms with
  | nil => simp [heightAll]
  | cons m ms ih => simp [heightAll, ih, Nat.max_assoc]

theorem heightKeywords_eq (ks : List (Option Text × Node)) :
    heightKeywords ks = heightAll (ks.map Prod.snd) := by
  induction ks with
  | nil => simp [heightKeywords, heightAll]
  | cons k ks ih => simp [heightKeywords, heightAll, ih]

theorem height_eq (n : Node) : n.height = heightAll n.children + 1 := by
  cases n with
  | call s f as ks =>
      simp [height, children, heightAll, heightAll_append, heightKeywords_eq]
  | expression s v k o => cases o <;> simp [height, children, heightAll, heightOption]
  | name | member | constant | template | group => simp [height, children, heightAll]

theorem height_pos (n : Node) : 0 < n.height := by
  rw [height_eq]
  exact Nat.succ_pos _

theorem height_lt_of_mem (h : m ∈ n.children) : m.height < n.height := by
  rw [height_eq n]
  exact Nat.lt_succ_of_le (heightAll_le_iff.mp (Nat.le_refl _) m h)

theorem induction_height {P : Node → Prop}
    (step : ∀ n : Node, (∀ m : Node, m.height < n.height → P m) → P n) (n : Node) : P n :=
  (measure height).wf.induction n step

/-! ### A function applied to all parts -/

variable {f g : Node → Except FlattenError Node}

theorem mapKeywords_eq_ok_iff {ks ls : List (Option Text × Node)} :
    mapKeywords f ks = .ok ls ↔ ls.map Prod.fst = ks.map Prod.fst ∧
      List.Forall₂ (fun c d => f c = .ok d) (ks.map Prod.snd) (ls.map Prod.snd) := by
  induction ks generalizing ls with
  | nil => cases ls <;> simp [mapKeywords]
  | cons k ks ih =>
      obtain ⟨k, n⟩ := k
      rw [mapKeywords, bind_eq_ok]
      cases ls with
      | nil =>
          simp only [bind_eq_ok, pure_eq_ok]
          simp
      | cons l ls =>
          obtain ⟨l, m⟩ := l
          simp only [bind_eq_ok, pure_eq_ok, ih, List.map_cons, List.cons.injEq, Prod.mk.injEq,
            List.forall₂_cons]
          constructor
          · rintro ⟨m, hm, ls, ⟨hnames, hls⟩, ⟨rfl, rfl⟩, rfl⟩
            exact ⟨⟨rfl, hnames⟩, hm, hls⟩
          · rintro ⟨⟨rfl, hnames⟩, hm, hls⟩
            exact ⟨m, hm, ls, ⟨hnames, hls⟩, ⟨rfl, rfl⟩, rfl⟩

theorem optionMapM_eq_ok_iff {o p : Option Node} :
    o.mapM f = .ok p ↔
      p.isSome = o.isSome ∧ List.Forall₂ (fun c d => f c = .ok d) o.toList p.toList := by
  cases o with
  | none => cases p <;> simp [pure_eq_ok]
  | some c =>
      rw [Option.mapM_some]
      cases hc : f c <;> cases p <;> simp [Functor.map, Except.map, hc, eq_comm]

theorem mapParts_eq_ok (h : n.mapParts f = .ok m) :
    m.span = n.span ∧ m.kind = n.kind ∧
      List.Forall₂ (fun c d => f c = .ok d) n.children m.children := by
  cases n with
  | name s id =>
      obtain rfl := Except.ok.inj h
      exact ⟨rfl, rfl, .nil⟩
  | constant s v =>
      obtain rfl := Except.ok.inj h
      exact ⟨rfl, rfl, .nil⟩
  | member s v id =>
      obtain ⟨w, hw, h⟩ := bind_eq_ok.mp h
      obtain rfl := pure_eq_ok.mp h
      exact ⟨rfl, rfl, .cons hw .nil⟩
  | template s ps =>
      obtain ⟨qs, hqs, h⟩ := bind_eq_ok.mp h
      obtain rfl := pure_eq_ok.mp h
      exact ⟨rfl, rfl, mapM_eq_ok_iff.mp hqs⟩
  | group s label ps =>
      obtain ⟨qs, hqs, h⟩ := bind_eq_ok.mp h
      obtain rfl := pure_eq_ok.mp h
      exact ⟨rfl, rfl, mapM_eq_ok_iff.mp hqs⟩
  | expression s v k o =>
      obtain ⟨w, hw, h⟩ := bind_eq_ok.mp h
      obtain ⟨p, hp, h⟩ := bind_eq_ok.mp h
      obtain rfl := pure_eq_ok.mp h
      obtain ⟨hsome, hp⟩ := optionMapM_eq_ok_iff.mp hp
      exact ⟨rfl, congrArg (Kind.expression k) hsome, .cons hw hp⟩
  | call s c as ks =>
      obtain ⟨d, hd, h⟩ := bind_eq_ok.mp h
      obtain ⟨bs, hbs, h⟩ := bind_eq_ok.mp h
      obtain ⟨ls, hls, h⟩ := bind_eq_ok.mp h
      obtain rfl := pure_eq_ok.mp h
      obtain ⟨hnames, hls⟩ := mapKeywords_eq_ok_iff.mp hls
      have hbs := mapM_eq_ok_iff.mp hbs
      refine ⟨rfl, ?_, .cons hd ((forall₂_append_iff hbs.length_eq).mpr ⟨hbs, hls⟩)⟩
      rw [kind, kind, hnames, hbs.length_eq]

theorem exists_keywords {names : List (Option Text)} {values : List Node}
    (h : names.length = values.length) :
    ∃ ks : List (Option Text × Node), ks.map Prod.fst = names ∧ ks.map Prod.snd = values :=
  ⟨names.zip values, List.map_fst_zip (Nat.le_of_eq h), List.map_snd_zip (Nat.le_of_eq h.symm)⟩

/-- If the function has a result for each part, these are the parts of a node of the same kind. -/
theorem exists_mapParts {ds : List Node}
    (h : List.Forall₂ (fun c d => f c = .ok d) n.children ds) :
    ∃ m, n.mapParts f = .ok m ∧ m.kind = n.kind ∧ m.children = ds := by
  cases n with
  | name s id =>
      obtain rfl := List.forall₂_nil_left_iff.mp h
      exact ⟨_, rfl, rfl, rfl⟩
  | constant s v =>
      obtain rfl := List.forall₂_nil_left_iff.mp h
      exact ⟨_, rfl, rfl, rfl⟩
  | member s v id =>
      obtain ⟨w, es, hw, hes, rfl⟩ := List.forall₂_cons_left_iff.mp h
      obtain rfl := List.forall₂_nil_left_iff.mp hes
      exact ⟨member s w id, bind_eq_ok.mpr ⟨w, hw, rfl⟩, rfl, rfl⟩
  | template s ps =>
      exact ⟨template s ds, bind_eq_ok.mpr ⟨ds, mapM_eq_ok_iff.mpr h, rfl⟩, rfl, rfl⟩
  | group s label ps =>
      exact ⟨group s label ds, bind_eq_ok.mpr ⟨ds, mapM_eq_ok_iff.mpr h, rfl⟩, rfl, rfl⟩
  | expression s v k o =>
      obtain ⟨w, es, hw, hes, rfl⟩ := List.forall₂_cons_left_iff.mp h
      obtain ⟨p, hsome, rfl⟩ : ∃ p : Option Node, p.isSome = o.isSome ∧ p.toList = es := by
        cases o with
        | none =>
            obtain rfl := List.forall₂_nil_left_iff.mp hes
            exact ⟨none, rfl, rfl⟩
        | some c =>
            obtain ⟨d, rest, -, hrest, rfl⟩ := List.forall₂_cons_left_iff.mp hes
            obtain rfl := List.forall₂_nil_left_iff.mp hrest
            exact ⟨some d, rfl, rfl⟩
      refine ⟨expression s w k p, ?_, congrArg (Kind.expression k) hsome, rfl⟩
      exact bind_eq_ok.mpr ⟨w, hw, bind_eq_ok.mpr ⟨p, optionMapM_eq_ok_iff.mpr ⟨hsome, hes⟩, rfl⟩⟩
  | call s c as ks =>
      obtain ⟨d, es, hd, hes, rfl⟩ := List.forall₂_cons_left_iff.mp h
      have hall : as.length + ks.length = es.length := by simpa using hes.length_eq
      have hargs : as.length = (es.take as.length).length := by
        rw [List.length_take]
        omega
      rw [← List.take_append_drop as.length es, forall₂_append_iff hargs] at hes
      have hcount : (ks.map Prod.fst).length = (es.drop as.length).length := by
        rw [List.length_map, List.length_drop]
        omega
      obtain ⟨ls, hnames, hvalues⟩ := exists_keywords hcount
      refine ⟨call s d (es.take as.length) ls, ?_, ?_, ?_⟩
      · refine bind_eq_ok.mpr ⟨d, hd, bind_eq_ok.mpr ⟨_, mapM_eq_ok_iff.mpr hes.1, ?_⟩⟩
        exact bind_eq_ok.mpr ⟨ls, mapKeywords_eq_ok_iff.mpr ⟨hnames, hvalues ▸ hes.2⟩, rfl⟩
      · rw [kind, kind, hnames, ← hargs]
      · rw [children, hvalues, List.take_append_drop]

theorem mapParts_call_eq_ok_iff {s : Span} {c l : Node} {as : List Node}
    {ks : List (Option Text × Node)} :
    (call s c (l :: as) ks).mapParts f = .ok m ↔
      ∃ d l' bs ls, m = call s d (l' :: bs) ls ∧ f c = .ok d ∧ f l = .ok l' ∧
        List.Forall₂ (fun c d => f c = .ok d) as bs ∧ ls.map Prod.fst = ks.map Prod.fst ∧
        List.Forall₂ (fun c d => f c = .ok d) (ks.map Prod.snd) (ls.map Prod.snd) := by
  simp only [mapParts, bind_eq_ok, pure_eq_ok, mapM_eq_ok_iff, mapKeywords_eq_ok_iff,
    List.forall₂_cons_left_iff]
  constructor
  · rintro ⟨d, hd, _, ⟨l', bs, hl, hbs, rfl⟩, ls, ⟨hnames, hls⟩, rfl⟩
    exact ⟨d, l', bs, ls, rfl, hd, hl, hbs, hnames, hls⟩
  · rintro ⟨d, l', bs, ls, rfl, hd, hl, hbs, hnames, hls⟩
    exact ⟨d, hd, _, ⟨l', bs, hl, hbs, rfl⟩, ls, ⟨hnames, hls⟩, rfl⟩

theorem mapKeywords_congr {ks : List (Option Text × Node)}
    (h : ∀ c ∈ ks.map Prod.snd, f c = g c) : mapKeywords f ks = mapKeywords g ks := by
  induction ks with
  | nil => rfl
  | cons k ks ih =>
      rw [List.map_cons, List.forall_mem_cons] at h
      obtain ⟨k, n⟩ := k
      rw [mapKeywords, mapKeywords, h.1, ih h.2]

theorem mapM_congr {ns : List Node} (h : ∀ c ∈ ns, f c = g c) : ns.mapM f = ns.mapM g := by
  induction ns with
  | nil => rfl
  | cons n ns ih =>
      rw [List.forall_mem_cons] at h
      rw [List.mapM_cons, List.mapM_cons, h.1, ih h.2]

theorem mapParts_congr (h : ∀ c ∈ n.children, f c = g c) : n.mapParts f = n.mapParts g := by
  cases n with
  | name | constant => rfl
  | member s v id => rw [mapParts, mapParts, h v (by simp [children])]
  | template s ps =>
      have hps : ps.mapM f = ps.mapM g := mapM_congr h
      rw [mapParts, mapParts, hps]
  | group s label ps =>
      have hps : ps.mapM f = ps.mapM g := mapM_congr h
      rw [mapParts, mapParts, hps]
  | expression s v k o =>
      have hv := h v (by simp [children])
      cases o with
      | none => rw [mapParts, mapParts, hv, Option.mapM_none, Option.mapM_none]
      | some c =>
          rw [mapParts, mapParts, hv, Option.mapM_some, Option.mapM_some, h c (by simp [children])]
  | call s c as ks =>
      simp only [children, List.mem_cons, List.mem_append, or_imp, forall_and] at h
      rw [mapParts, mapParts, h.1 c rfl, mapM_congr h.2.1, mapKeywords_congr h.2.2]

end EmbeddedMarkup.Source.Node
