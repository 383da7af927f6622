import EmbeddedMarkup.Proofs.Html.Lexing

/-!
# The links between the ends of a tag

A lexeme that opens something is linked to the first lexeme behind it that closes it, as long as
nothing is opened in between (`Token.closed_eq`). Tags are such a case, for a tag never contains
another one.
-/

namespace EmbeddedMarkup.Html

def closesLast (opened : List (Nat × Lexeme)) (l : Lexeme) : Bool :=
  !l.opens && opened.head?.any fun e => l.closes e.2

def openNext (i : Nat) (opened : List (Nat × Lexeme)) (l : Lexeme) : List (Nat × Lexeme) :=
  if l.opens then (i, l) :: opened else if closesLast opened l then opened.drop 1 else opened

def linkNext (opened : List (Nat × Lexeme)) (l : Lexeme) : Link :=
  if closesLast opened l then
    { parent := (opened.drop 1).head?.map Prod.fst, opened := opened.head?.map Prod.fst }
  else { parent := opened.head?.map Prod.fst }

/-- What is open after lexemes, each with its place. -/
def openAfter : (i : Nat) → (opened : List (Nat × Lexeme)) → List Lexeme → List (Nat × Lexeme)
  | _, opened, [] => opened
  | i, opened, l :: ls => openAfter (i + 1) (openNext i opened l) ls

variable {i : Nat} {opened : List (Nat × Lexeme)} {ls : List Lexeme} {l : Lexeme}

theorem linksFrom_cons (i : Nat) (opened : List (Nat × Lexeme)) (l : Lexeme) (ls : List Lexeme) :
    linksFrom i opened (l :: ls) = linkNext opened l ::
      linksFrom (i + 1) (openNext i opened l) ls := by
  unfold linkNext openNext closesLast
  rcases opened with - | ⟨e, rest⟩
  · rw [linksFrom]
    cases l.opens <;> rfl
  · rw [linksFrom]
    cases l.opens
    · cases hcloses : l.closes e.2 <;> simp [hcloses]
    · rfl

theorem linksFrom_append (i : Nat) (opened : List (Nat × Lexeme)) (as bs : List Lexeme) :
    linksFrom i opened (as ++ bs) =
      linksFrom i opened as ++ linksFrom (i + as.length) (openAfter i opened as) bs := by
  induction as generalizing i opened with
  | nil => rfl
  | cons a as ih =>
      rw [List.cons_append, linksFrom_cons, linksFrom_cons, ih, openAfter, List.length_cons,
        Nat.add_comm as.length, ← Nat.add_assoc, List.cons_append]

theorem opened_lt (hopened : ∀ e ∈ opened, e.1 < i) :
    ∀ k ∈ linksFrom i opened ls, ∀ o, k.opened = some o → o < i + ls.length := by
  induction ls generalizing i opened with
  | nil => simp [linksFrom]
  | cons l ls ih =>
      have hlength : i + (l :: ls).length = i + 1 + ls.length := by
        simp [Nat.add_comm, Nat.add_left_comm]
      have hnext : ∀ e ∈ openNext i opened l, e.1 < i + 1 := by
        intro e he
        unfold openNext at he
        split at he
        · rcases List.mem_cons.mp he with rfl | he
          · exact Nat.lt_succ_self i
          · exact Nat.lt_succ_of_lt (hopened e he)
        · split at he
          · exact Nat.lt_succ_of_lt (hopened e (List.mem_of_mem_drop he))
          · exact Nat.lt_succ_of_lt (hopened e he)
      rw [hlength, linksFrom_cons]
      refine List.forall_mem_cons.mpr ⟨fun o ho => ?_, ih hnext⟩
      unfold linkNext at ho
      split at ho
      · obtain ⟨e, he, rfl⟩ := Option.map_eq_some_iff.mp ho
        have := hopened e (List.mem_of_mem_head? he)
        omega
      · cases ho

/-- Inside a tag nothing is opened or closed. -/
theorem linksFrom_inside (i j : Nat) (opened : List (Nat × Lexeme)) {o : Lexeme}
    (hls : ∀ l ∈ ls, l.opens = false ∧ l.closes o = false) :
    (∀ k ∈ linksFrom i ((j, o) :: opened) ls, k.opened = none) ∧
      openAfter i ((j, o) :: opened) ls = (j, o) :: opened := by
  induction ls generalizing i with
  | nil => simp [linksFrom, openAfter]
  | cons l ls ih =>
      obtain ⟨⟨hopens, hcloses⟩, hls⟩ := List.forall_mem_cons.mp hls
      obtain ⟨hinside, hafter⟩ := ih (i + 1) hls
      have hkeeps : closesLast ((j, o) :: opened) l = false := by simp [closesLast, hcloses]
      have hnext : openNext i ((j, o) :: opened) l = (j, o) :: opened := by
        simp [openNext, hopens, hkeeps]
      rw [linksFrom_cons, openAfter, hnext]
      exact ⟨List.forall_mem_cons.mpr ⟨by simp [linkNext, hkeeps], hinside⟩, hafter⟩

/-- The place of the first link back to an opening. -/
theorem findIdx?_links (pre mid post : List Lexeme) {o c : Lexeme} (ho : o.opens = true)
    (hmid : ∀ l ∈ mid, l.opens = false ∧ l.closes o = false)
    (hc : c.opens = false ∧ c.closes o = true) :
    (linksFrom 0 [] (pre ++ o :: (mid ++ c :: post))).findIdx?
      (fun l => l.opened == some pre.length) = some (pre.length + 1 + mid.length) := by
  let opened := openAfter 0 [] pre
  obtain ⟨hinside, hafter⟩ := linksFrom_inside (pre.length + 1) pre.length opened hmid
  have hsplit : linksFrom 0 [] (pre ++ o :: (mid ++ c :: post)) =
      linksFrom 0 [] pre ++ linkNext opened o ::
        (linksFrom (pre.length + 1) ((pre.length, o) :: opened) mid ++
          linkNext ((pre.length, o) :: opened) c ::
          linksFrom (pre.length + 1 + mid.length + 1) opened post) := by
    rw [linksFrom_append, Nat.zero_add, linksFrom_cons,
      show openNext pre.length (openAfter 0 [] pre) o = (pre.length, o) ::
      opened by simp [openNext, ho, opened], linksFrom_append, hafter, linksFrom_cons]
    rw [show openNext (pre.length + 1 + mid.length) ((pre.length, o) :: opened) c = opened by
      simp [openNext, closesLast, hc]]
  have hpre : (linksFrom 0 [] pre).findIdx? (fun l => l.opened == some pre.length) = none := by
    rw [List.findIdx?_eq_none_iff]
    intro k hk
    rw [beq_eq_false_iff_ne]
    intro he
    have := opened_lt (by simp) k hk _ he
    omega
  have hmid : (linksFrom (pre.length + 1) ((pre.length, o) :: opened) mid).findIdx?
      (fun l => l.opened == some pre.length) = none := by
    rw [List.findIdx?_eq_none_iff]
    intro k hk
    simp [hinside k hk]
  have hopening : ((linkNext opened o).opened == some pre.length) = false := by
    simp [linkNext, closesLast, ho]
  have hclosing : ((linkNext ((pre.length, o) :: opened) c).opened == some pre.length) = true := by
    simp [linkNext, closesLast, hc]
  rw [hsplit, List.findIdx?_append, hpre, List.findIdx?_cons, hopening, List.findIdx?_append, hmid,
    List.findIdx?_cons, hclosing]
  simp [length_linksFrom]
  omega

theorem Token.link_getElem? {k : Nat} {t : Token} (h : (Token.link ls)[k]? = some t) :
    t.index = k ∧ t.closed = (linksFrom 0 [] ls).findIdx? fun l => l.opened == some k := by
  unfold Token.link at h
  rw [List.getElem?_mapIdx] at h
  obtain ⟨e, -, rfl⟩ := Option.map_eq_some_iff.mp h
  exact ⟨rfl, rfl⟩

/-- The end of a tag is what its opening is linked to. -/
theorem Token.closed_eq {pre mid post : List Token} {o c : Token}
    (hts : Token.link ls = pre ++ o :: (mid ++ c :: post)) (ho : o.opens = true)
    (hmid : ∀ t ∈ mid, t.opens = false ∧ t.closes o.toLexeme = false)
    (hc : c.opens = false ∧ c.closes o.toLexeme = true) : o.closed = some c.index := by
  have hls : ls = pre.map Token.toLexeme ++ o.toLexeme ::
      (mid.map Token.toLexeme ++ c.toLexeme :: post.map Token.toLexeme) := by
    rw [← Token.map_toLexeme_link ls, hts]
    simp
  have hopening := Token.link_getElem? (show (Token.link ls)[pre.length]? = some o by simp [hts])
  have hclosing :=
      Token.link_getElem? (show (Token.link ls)[pre.length + 1 + mid.length]? = some c by
    rw [hts, List.getElem?_append_right (by omega),
        show pre.length + 1 + mid.length - pre.length = mid.length + 1 by
      omega]
    simp)
  have hfound :=
    findIdx?_links (pre.map Token.toLexeme) (mid.map Token.toLexeme) (post.map Token.toLexeme) ho
    (by simpa using hmid) hc
  rw [← hls, List.length_map, List.length_map] at hfound
  rw [hopening.2, hfound, hclosing.1]

end EmbeddedMarkup.Html
