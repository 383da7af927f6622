import EmbeddedMarkup.Layout.Line

/-!
# What the table of indentations answers

A query may find its entry in the table or make the table grow, and neither shows in the answer. A
table without holes has the text of `n` columns at the place `n` (`IndentTable.getElem?_entries`),
so after growing as far as it is asked for it answers with that text; and a query changes nothing
but the table (`Indent.after_eq`). With the closed form of the text (`IndentLevel.fill_eq`), this
gives the answer to a query after any others.
-/

namespace EmbeddedMarkup.Layout

/-- As many levels as fit into the columns, and spaces for the rest. Without columns in a level, no
level fits. -/
theorem IndentLevel.fill_eq {l : IndentLevel} (h : 0 ≤ l.size) (n : Nat) :
    l.fill n = Text.timesInt (n / l.size) l.unit ++ Text.timesInt (n % l.size) [' '] := by
  unfold fill
  split
  · have hrest : (n : Int) - n / l.size * l.size = n % l.size := by
      rw [Int.emod_def, Int.mul_comm]
    dsimp only
    rw [Int.fdiv_eq_ediv_of_nonneg _ h, hrest]
  · next hfew =>
      -- Less than a level, or levels of no columns.
      have hquot : (n : Int) / l.size = 0 ∧ (n : Int) % l.size = n := by
        by_cases hzero : l.size = 0
        · simp [hzero]
        · have hlt : (n : Int) < l.size := by omega
          exact ⟨Int.ediv_eq_zero_of_lt (Int.natCast_nonneg n) hlt,
            Int.emod_eq_of_lt (Int.natCast_nonneg n) hlt⟩
      rw [hquot.1, hquot.2]
      rfl

namespace IndentTable

variable {l : IndentLevel} (t : IndentTable l)

theorem getElem?_entries {n : Nat} (h : n < t.entries.length) :
    t.entries[n]? = some (l.fill n) := by
  rw [t.entries_eq]
  simp [h]

theorem length_addColumns (k : Nat) : (addColumns k t).entries.length = t.entries.length + k := by
  induction k generalizing t with
  | zero => rfl
  | succ k ih =>
      rw [addColumns, ih]
      simp only [addColumn, List.length_append, List.length_singleton]
      omega

theorem itemAt?_reach {n : Int} (h : 0 ≤ n) :
    itemAt? (t.reach n).entries n = some (l.fill n.toNat) := by
  have hlt : n.toNat < (t.reach n).entries.length := by
    rw [reach, length_addColumns]
    omega
  rw [itemAt?, if_pos h, getElem?_entries _ hlt]

theorem exists_fill_of_itemAt? {n : Int} {x : Text} (h : itemAt? t.entries n = some x) :
    ∃ k, x = l.fill k := by
  have hentry : ∀ {k : Nat}, t.entries[k]? = some x → ∃ k, x = l.fill k := by
    intro k hk
    have hlt := (List.getElem?_eq_some_iff.mp hk).1
    exact ⟨k, Option.some.inj (hk.symm.trans (t.getElem?_entries hlt))⟩
  unfold itemAt? at h
  split at h
  · exact hentry h
  · split at h
    · exact hentry h
    · cases h

end IndentTable

namespace Indent

variable {i i' : Indent} {m : Margin}

/-- The indentation of a margin whose columns are not to the left of the text. -/
def lead (i : Indent) (m : Margin) : Text :=
  if m.level < 0 then i.fill m.column.toNat
  else i.base ++ i.fill (m.column + m.level * i.size).toNat

theorem entry_eq {n : Int} (h : 0 ≤ n) :
    i.entry n = .ok (i.fill n.toNat, { i with table := i.table.reach n }) := by
  simp only [entry, i.table.itemAt?_reach h]

theorem text_eq (h : 0 ≤ m.column) (hsize : 0 ≤ i.size) :
    ∃ table, i.text m.level m.column = .ok (i.lead m, { i with table }) := by
  unfold text lead
  split
  · exact ⟨_, entry_eq h⟩
  · next hlevel =>
      have hwidth : 0 ≤ m.column + m.level * i.size :=
        Int.add_nonneg h (Int.mul_nonneg (by omega) hsize)
      exact ⟨_, by rw [entry_eq hwidth]; rfl⟩

/-- Whatever is asked for, the answer is an entry for some columns, and only the table changes. -/
theorem entry_eq_ok {n : Int} {x : Text} (h : i.entry n = .ok (x, i')) :
    (∃ k, x = i.fill k) ∧ ∃ table, i' = { i with table } := by
  unfold entry at h
  cases hitem : itemAt? (i.table.reach n).entries n with
  | none => simp [hitem] at h
  | some y =>
      simp only [hitem, Except.ok.injEq, Prod.mk.injEq] at h
      obtain ⟨rfl, rfl⟩ := h
      exact ⟨(i.table.reach n).exists_fill_of_itemAt? hitem, _, rfl⟩

theorem text_eq_ok {level column : Int} {x : Text} (h : i.text level column = .ok (x, i')) :
    (∃ k, x = i.fill k ∨ x = i.base ++ i.fill k) ∧ ∃ table, i' = { i with table } := by
  unfold text at h
  split at h
  · obtain ⟨⟨k, hk⟩, htable⟩ := entry_eq_ok h
    exact ⟨⟨k, .inl hk⟩, htable⟩
  · cases he : i.entry (column + level * i.size) with
    | error e => simp [he, Except.map] at h
    | ok e =>
        simp only [he, Except.map, Except.ok.injEq, Prod.mk.injEq] at h
        obtain ⟨rfl, rfl⟩ := h
        obtain ⟨⟨k, hk⟩, htable⟩ := entry_eq_ok he
        exact ⟨⟨k, .inr (by rw [hk])⟩, htable⟩

/-- The table after a query. One that is not answered leaves it as it is. -/
def after (i : Indent) (m : Margin) : Indent :=
  ((i.text m.level m.column).toOption.map Prod.snd).getD i

theorem after_eq (i : Indent) (m : Margin) : ∃ table, i.after m = { i with table } := by
  unfold after
  cases h : i.text m.level m.column with
  | error e => exact ⟨i.table, rfl⟩
  | ok e => exact (text_eq_ok h).2

theorem foldl_after_eq (i : Indent) (ms : List Margin) :
    ∃ table, ms.foldl after i = { i with table } := by
  induction ms generalizing i with
  | nil => exact ⟨i.table, rfl⟩
  | cons m ms ih =>
      obtain ⟨table, h⟩ := i.after_eq m
      rw [List.foldl_cons, h]
      exact ih { i with table }

theorem text_foldl_after (earlier : List Margin) (h : 0 ≤ m.column) (hsize : 0 ≤ i.size) :
    ((earlier.foldl after i).text m.level m.column).map Prod.fst = .ok (i.lead m) := by
  obtain ⟨table, hearlier⟩ := foldl_after_eq i earlier
  obtain ⟨_, htext⟩ := text_eq (i := { i with table }) h hsize
  rw [hearlier, htext]
  rfl

theorem lead_eq (i : Indent) (m : Margin) :
    i.lead m = (if m.level < 0 then [] else i.base) ++
      i.fill (m.column + max m.level 0 * i.size).toNat := by
  unfold lead
  split
  · next hlevel =>
      rw [Int.max_eq_right (Int.le_of_lt hlevel), Int.zero_mul, Int.add_zero]
      rfl
  · next hlevel => rw [Int.max_eq_left (Int.not_lt.mp hlevel)]

theorem make_eq (l : IndentLevel) (start : Int) (base : Text) :
    make l.size l.char l.tabs start base =
      { l with base := if 0 < start then Text.timesInt start l.unit else base } := by
  unfold make
  split <;> rfl

/-- Whatever was asked before, the answer is the base and then as many levels as fit into the
columns and spaces for the rest. A positive starting level gives the base, in place of the text that
was given. -/
theorem text_after_queries (l : IndentLevel) (start : Int) (base : Text) (earlier : List Margin)
    (level column : Int) (hsize : 0 ≤ l.size) (hcolumn : 0 ≤ column) :
    let n := column + max level 0 * l.size
    ((earlier.foldl after (make l.size l.char l.tabs start base)).text level column).map Prod.fst =
      .ok ((if level < 0 then [] else if 0 < start then Text.timesInt start l.unit else base) ++
        if l.size = 0 then Text.timesInt column [' ']
        else Text.timesInt (n / l.size) l.unit ++ Text.timesInt (n % l.size) [' ']) := by
  intro n
  have hn : 0 ≤ n := Int.add_nonneg hcolumn (Int.mul_nonneg (Int.le_max_right level 0) hsize)
  have hfill : l.fill n.toNat = if l.size = 0 then Text.timesInt column [' ']
      else Text.timesInt (n / l.size) l.unit ++ Text.timesInt (n % l.size) [' '] := by
    rw [IndentLevel.fill_eq hsize, Int.toNat_of_nonneg hn]
    split
    · next hzero => simp [n, hzero, Text.timesInt, Text.times]
    · rfl
  rw [make_eq, text_foldl_after (m := ⟨level, column⟩) earlier hcolumn hsize, lead_eq, ← hfill]

theorem text_after_queries_tabs :
    (0 : Int) ≤ 4 ∧ (0 : Int) ≤ 6 ∧
      (([⟨2, 3⟩, ⟨-1, -19⟩, ⟨0, -1⟩].foldl after (make 4 ['\t'] true 0 ['X'])).text 1 6).map
        Prod.fst = .ok ['X', '\t', '\t', ' ', ' '] :=
  ⟨by decide, by decide, text_after_queries ⟨4, ['\t'], true⟩ 0 ['X'] _ 1 6 (by decide) (by decide)⟩

/-- With a starting level the base that was given is not written. -/
theorem text_without_given_base :
    ((make 4 [' '] false 1 ['X']).text 0 0).map Prod.fst ≠ .ok ['X'] := by
  rw [show ((make 4 [' '] false 1 ['X']).text 0 0).map Prod.fst = .ok [' ', ' ', ' ', ' '] from rfl]
  simp

end Indent

end EmbeddedMarkup.Layout
