import EmbeddedMarkup.Proofs.Safe.Unescape
import EmbeddedMarkup.Proofs.Safe.Untrusted
import EmbeddedMarkup.Proofs.Text.Joining
import Mathlib.Data.Char
import Mathlib.Data.List.AList
import Mathlib.Data.List.Lex

/-!
# Attributes read back

Attributes whose names are plain can be read back from what is written (`attributes_read_back`).
What is read is the merged mapping, without the entries that are left out and in ascending order of
the names, so it does not matter in which order or in which way the entries were given. Only whole
numbers that are too long to be written are in the way of this.

A mapping is an association list without duplicate keys. Merging and sorting are followed through
such lists, and a sorted list is known by its members.
-/

namespace EmbeddedMarkup

namespace Text

theorem le_iff {s t : Text} : le s t = true ↔ ¬t < s := by
  induction s generalizing t with
  | nil => simp [le]
  | cons c s ih =>
      cases t with
      | nil => simp [le]
      | cons d t =>
          by_cases h : c = d
          · subst h
            simp [le, ih]
          · have hlt : c.toNat < d.toNat ↔ c < d := Iff.rfl
            have hnot : c < d ↔ ¬d < c := ⟨lt_asymm, (lt_or_gt_of_ne h).resolve_right⟩
            rw [List.cons_lt_cons_iff]
            simpa [le, h, Ne.symm h, hlt] using hnot

theorem le_eq_not (s t : Text) : le s t = !(t != s && le t s) := by
  have hle : ¬t < s ↔ s < t ∨ s = t := not_lt.trans le_iff_lt_or_eq
  have hnot : le t s = false ↔ s < t := by rw [← Bool.not_eq_true, le_iff, not_not]
  rw [Bool.eq_iff_iff, le_iff, hle, or_comm, eq_comm, Bool.not_eq_true', Bool.and_eq_false_iff,
    bne_eq_false_iff_eq, hnot]

end Text

namespace Safe

/-- A name that can be read back. -/
structure IsAttributeName (k : Text) : Prop where
  ne_nil : k ≠ []
  plain : Plain k
  equals_not_mem : '=' ∉ k
  isBlank_eq_false : ∀ c ∈ k, Text.isBlank c = false

/-- The names that can be read back. -/
abbrev AttributeName := { k : Text // IsAttributeName k }

/-- The values that can be read back. -/
inductive AttributeValue where
  | nothing
  | flag (b : Bool)
  | number (n : Int)
  | text (s : Text)
  deriving DecidableEq, Repr

namespace AttributeValue

def toValue : AttributeValue → Value
  | nothing => .none
  | flag b => .bool b
  | number n => .int n
  | text s => .str s

/-- What is read for a value: nothing if it is left out, and otherwise no text if the name stands
alone. -/
def shown : AttributeValue → Option (Option Text)
  | nothing => none
  | flag false => none
  | flag true => some none
  | number n => some (some (Text.ofInt n))
  | text s => some (some s)

def isWritable : AttributeValue → Bool
  | number n => Text.hasNumeral n
  | _ => true

theorem isWritable_iff {v : AttributeValue} :
    v.isWritable = true ↔ ∀ n, v = .number n → Text.hasNumeral n = true := by
  cases v <;> simp [isWritable]

end AttributeValue

abbrev AttributeEntry := Σ _ : AttributeName, AttributeValue

/-- The entries of a mapping, in the order in which they were given. -/
abbrev AttributeMap := AList fun _ : AttributeName => AttributeValue

def AttributeEntry.toEntry (e : AttributeEntry) : Value × Value := (.str e.1.1, e.2.toValue)

def AttributeEntry.toKeyword (e : AttributeEntry) : Text × Value := (e.1.1, e.2.toValue)

def AttributeEntry.shown? (e : AttributeEntry) : Option (AttributeName × Option Text) :=
  e.2.shown.map fun x => (e.1, x)

def AttributeEntry.written? (e : AttributeEntry) : Option Text :=
  e.shown?.map fun a => written (a.1.1, a.2.map escape)

section Reading

/-- Whether a character goes on the name of an attribute. -/
def isNamePart (c : Char) : Bool := c != '=' && c != ' '

/-- The value up to the next quote, and what follows it. -/
def readValue? (t : Text) : Option (Text × Text) :=
  match t.dropWhile (· != '"') with
  | [] => none
  | _ :: rest => some (unescape (t.takeWhile (· != '"')), rest)

/-- The attribute at the start of a text, and what follows it: a name up to an equals sign or a
space, and after an equals sign a value in quotes. -/
def readAttribute? (t : Text) : Option ((Text × Option Text) × Text) :=
  match t.dropWhile isNamePart with
  | '=' :: '"' :: u => (readValue? u).map fun (value, rest) =>
      ((t.takeWhile isNamePart, some value), rest)
  | '=' :: _ => none
  | rest => some ((t.takeWhile isNamePart, none), rest)

theorem length_readValue? {t value rest : Text} (h : readValue? t = some (value, rest)) :
    rest.length < t.length := by
  have hdrop := (t.dropWhile_suffix (· != '"')).length_le
  unfold readValue? at h
  split at h
  · cases h
  · next hrest =>
      simp only [Option.some.injEq, Prod.mk.injEq] at h
      rw [hrest, h.2] at hdrop
      exact hdrop

theorem length_readAttribute? {t rest : Text} {a : Text × Option Text}
    (h : readAttribute? t = some (a, rest)) :
    rest.length ≤ t.length := by
  have hdrop := (t.dropWhile_suffix isNamePart).length_le
  unfold readAttribute? at h
  split at h
  · next u hu =>
      obtain ⟨⟨value, rest'⟩, hvalue, heq⟩ := Option.map_eq_some_iff.mp h
      obtain rfl : rest' = rest := (Prod.mk.inj heq).2
      have hrest := length_readValue? hvalue
      simp only [hu, List.length_cons] at hdrop
      omega
  · cases h
  · simp only [Option.some.injEq, Prod.mk.injEq] at h
    exact h.2 ▸ hdrop

def readAttributes? (t : Text) : Option (List (Text × Option Text)) :=
  if t = [] then some []
  else
    match h : readAttribute? t with
    | none => none
    | some (a, []) => some [a]
    | some (a, c :: rest) =>
        have : rest.length < t.length := length_readAttribute? h
        if c = ' ' then (readAttributes? rest).map (a :: ·) else none
termination_by t.length

theorem readAttributes?_nil : readAttributes? [] = some [] := by
  rw [readAttributes?, if_pos rfl]

theorem readAttributes?_last {t : Text} {a : Text × Option Text} (ht : t ≠ [])
    (h : readAttribute? t = some (a, [])) : readAttributes? t = some [a] := by
  rw [readAttributes?, if_neg ht]
  split <;> simp_all

theorem readAttributes?_space {t rest : Text} {a : Text × Option Text} (ht : t ≠ [])
    (h : readAttribute? t = some (a, ' ' :: rest)) :
    readAttributes? t = (readAttributes? rest).map (a :: ·) := by
  rw [readAttributes?, if_neg ht]
  split <;> simp_all

theorem isNamePart_of_mem {k : Text} (hk : IsAttributeName k) : ∀ c ∈ k, isNamePart c = true := by
  intro c hc
  have hspace : c ≠ ' ' := by
    rintro rfl
    exact absurd (hk.isBlank_eq_false ' ' hc) (by decide)
  have hequals : c ≠ '=' := fun e => hk.equals_not_mem (e ▸ hc)
  simp [isNamePart, hspace, hequals]

theorem readValue?_escape (s rest : Text) :
    readValue? (escape s ++ '"' :: rest) = some (s, rest) := by
  have hquote : ∀ c ∈ escape s, (c != '"') = true := fun c hc => by
    simpa using ne_of_mem_of_not_mem hc (quote_not_mem_escape s)
  unfold readValue?
  rw [Text.takeWhile_append_cons hquote (by decide), Text.dropWhile_append_cons hquote (by decide),
    unescape_escape]

/-- A written attribute is read at the end of the text and in front of a space. -/
theorem readAttribute?_written {k : Text} (hk : IsAttributeName k) (x : Option Text) (rest : Text)
    (hrest : ∀ c ∈ rest.head?, c = ' ') :
    readAttribute? (written (k, x.map escape) ++ rest) = some ((k, x), rest) := by
  have hname := isNamePart_of_mem hk
  unfold readAttribute?
  cases x with
  | none =>
      rw [Option.map_none, show written (k, none) = k from rfl, List.takeWhile_append_of_pos hname,
        List.dropWhile_append_of_pos hname]
      cases rest with
      | nil => simp
      | cons c rest =>
          obtain rfl := hrest c rfl
          simp [isNamePart]
  | some s =>
      have htext : written (k, (some s).map escape) ++ rest = k ++ '=' :: '"' ::
          (escape s ++ '"' :: rest) := by
        simp [written, assignment]
      rw [htext, Text.takeWhile_append_cons hname (by decide),
        Text.dropWhile_append_cons hname (by decide)]
      exact congrArg (Option.map _) (readValue?_escape s rest)

theorem readAttributes?_join (as : List (AttributeName × Option Text)) :
    readAttributes? (Text.join [' '] (as.map fun a => written (a.1.1, a.2.map escape))) =
      some (as.map fun a => (a.1.1, a.2)) := by
  induction as with
  | nil => exact readAttributes?_nil
  | cons a as ih =>
      obtain ⟨⟨k, hk⟩, x⟩ := a
      have hne (rest : Text) : written (k, x.map escape) ++ rest ≠ [] := by
        cases x <;> simp [written, assignment, hk.ne_nil]
      by_cases has : as = []
      · subst has
        have hread := readAttribute?_written hk x [] (by simp)
        simpa [Text.join] using readAttributes?_last (hne []) hread
      · rw [List.map_cons, Text.join_cons (by simpa using has), List.append_assoc,
          List.singleton_append,
          readAttributes?_space (hne _) (readAttribute?_written hk x _ (by simp)), ih]
        rfl

end Reading

section Writing

theorem strip_eq_self {t : Text} (h : ∀ c ∈ t, Text.isBlank c = false) : Text.strip t = t := by
  have hleft : Text.stripLeft t = t := by
    cases t with
    | nil => rfl
    | cons c t => exact List.dropWhile_cons_of_neg (by simp [h c (by simp)])
  rw [Text.strip, hleft]
  exact Text.dropRightWhile_eq_self fun c hc => h c (List.mem_of_getLast? hc)

theorem attributeName_str (k : AttributeName) : attributeName (.str k.1) = .ok k.1 := by
  rw [attributeName, escape_eq_self_iff.mpr k.2.plain, strip_eq_self k.2.isBlank_eq_false]

theorem entryText_toEntry (e : AttributeEntry) :
    entryText e.toEntry.1 e.toEntry.2 =
      if e.2.isWritable then .ok e.written? else .error .tooManyDigits := by
  obtain ⟨k, v⟩ := e
  have hname : k.1.isEmpty = false := List.isEmpty_eq_false_iff.mpr k.2.ne_nil
  have hshown {x : Value} (hx : isOmitted x = false) :
      entryText (.str k.1) x = attributeText k.1 x := by
    rw [entryText, hx, attributeName_str]
    change (if k.1.isEmpty then _ else _) = _
    rw [hname]
    rfl
  cases v with
  | nothing => rfl
  | flag b =>
      cases b with
      | false => rfl
      | true => exact hshown rfl
  | number n =>
      have hescape : escape (Text.ofInt n) = Text.ofInt n := escape_eq_self_iff.mpr (plain_ofInt n)
      have hwritten : AttributeEntry.written? ⟨k, .number n⟩ =
          some (assignment k.1 (Text.ofInt n)) :=
        congrArg (fun t => some (assignment k.1 t)) hescape
      refine (hshown rfl).trans ?_
      change assigned k.1 (.int n) = _
      rw [hwritten, assigned, Value.writeFormatted, Value.checked, Value.isWritable,
        AttributeValue.isWritable]
      split <;> rfl
  | text s => exact hshown rfl

theorem entryTexts_map (l : List AttributeEntry) :
    entryTexts (l.map AttributeEntry.toEntry) =
      if l.all (·.2.isWritable) then .ok (l.filterMap AttributeEntry.written?)
      else .error .tooManyDigits := by
  induction l with
  | nil => rfl
  | cons e l ih =>
      rw [List.map_cons, entryTexts, entryText_toEntry, ih, List.all_cons, List.filterMap_cons]
      cases e.2.isWritable with
      | false => rfl
      | true =>
          cases l.all (·.2.isWritable) with
          | false => rfl
          | true => cases e.written? <;> rfl

/-- Setting a value keeps the place of its name, and otherwise does what an insertion does. -/
theorem exists_put (k : AttributeName) (v : AttributeValue) (l : List AttributeEntry) :
    ∃ l' : List AttributeEntry,
      Entries.put (.str k.1) v.toValue (l.map AttributeEntry.toEntry) =
      l'.map AttributeEntry.toEntry ∧
        l'.Perm (l.kinsert k v) := by
  induction l with
  | nil => exact ⟨[⟨k, v⟩], rfl, .rfl⟩
  | cons e l ih =>
      obtain ⟨l', hput, hperm⟩ := ih
      have hsame : (Value.str k.1).same (.str e.1.1) = true ↔ k = e.1 := by
        rw [Value.same, Value.chars?, Option.some_beq_some, beq_iff_eq, Subtype.ext_iff, eq_comm]
      rw [List.map_cons, AttributeEntry.toEntry, Entries.put, List.kinsert_def]
      by_cases hk : k = e.1
      · refine ⟨⟨e.1, v⟩ :: l, ?_, ?_⟩
        · rw [if_pos (hsame.mpr hk)]
          rfl
        · rw [List.kerase_cons_eq hk, hk]
      · refine ⟨e :: l', ?_, ?_⟩
        · rw [if_neg (hsame.not.mpr hk), hput]
          rfl
        · rw [List.kerase_cons_ne hk]
          exact (hperm.cons e).trans (.swap ..)

/-- Keywords win over the entries of a mapping. -/
theorem exists_putAll {kw : List AttributeEntry} (hkw : kw.NodupKeys) {l : List AttributeEntry}
    (hl : l.NodupKeys) :
    ∃ l' : List AttributeEntry,
      Entries.putAll (kw.map AttributeEntry.toEntry) (l.map AttributeEntry.toEntry) =
          l'.map AttributeEntry.toEntry ∧
        l'.NodupKeys ∧ ∀ k, l'.dlookup k = (kw.dlookup k).or (l.dlookup k) := by
  induction kw generalizing l with
  | nil => exact ⟨l, rfl, hl, fun k => by simp⟩
  | cons e kw ih =>
      -- The first keyword is put in, and the others cannot change its value, as they have other
      -- names.
      obtain ⟨he, hkw⟩ := List.nodupKeys_cons.mp hkw
      obtain ⟨l₁, hput, hperm⟩ := exists_put e.1 e.2 l
      have hl₁ : l₁.NodupKeys := (List.perm_nodupKeys hperm).mpr (List.kinsert_nodupKeys _ _ hl)
      obtain ⟨l', hputAll, hl', hlookup⟩ := ih hkw hl₁
      refine ⟨l', ?_, hl', fun k => ?_⟩
      · rw [← hputAll, ← hput]
        rfl
      · rw [hlookup, List.perm_dlookup k hl₁ hperm]
        by_cases hk : k = e.1
        · subst hk
          rw [List.dlookup_kinsert, List.dlookup_eq_none.mpr he, List.dlookup_cons_eq]
          rfl
        · rw [List.dlookup_kinsert_ne hk, List.dlookup_cons_ne _ _ hk]

def ascending (l : List AttributeEntry) : List AttributeEntry :=
  l.mergeSort fun a b => Text.le a.1.1 b.1.1

theorem sorted_map (l : List AttributeEntry) :
    Entries.sorted (l.map AttributeEntry.toEntry) =
      .ok ((ascending l).map AttributeEntry.toEntry) := by
  have hless (s t : Text) : (Value.str s).less? (.str t) = some (s != t && Text.le s t) := by
    rw [Value.less?]
    rfl
  have hcomparable : Entries.areComparable (l.map AttributeEntry.toEntry) = true := by
    induction l with
    | nil => rfl
    | cons e l ih => simp [Entries.areComparable, AttributeEntry.toEntry, ih, hless]
  rw [Entries.sorted, if_pos hcomparable, ascending]
  refine congrArg Except.ok (List.map_mergeSort fun a _ b _ => ?_).symm
  change _ = ((Value.str b.1.1).less? (.str a.1.1) != some true)
  rw [hless, Text.le_eq_not]
  cases b.1.1 != a.1.1 && Text.le b.1.1 a.1.1 <;> rfl

theorem perm_ascending (l : List AttributeEntry) : (ascending l).Perm l := List.mergeSort_perm ..

theorem pairwise_ascending {l : List AttributeEntry} (hl : l.NodupKeys) :
    (ascending l).Pairwise fun a b => a.1.1 < b.1.1 := by
  have hle : (ascending l).Pairwise fun a b => Text.le a.1.1 b.1.1 = true := by
    refine List.pairwise_mergeSort (fun a b c hab hbc => ?_) (fun a b => ?_) l
    · rw [Text.le_iff, not_lt] at *
      exact hab.trans hbc
    · rw [Bool.or_eq_true, Text.le_iff, Text.le_iff, not_lt, not_lt]
      exact le_total _ _
  have hne := List.nodupKeys_iff_pairwise.mp ((List.perm_nodupKeys (perm_ascending l)).mpr hl)
  refine (hle.and hne).imp fun {a b} h => ?_
  exact lt_of_le_of_ne (not_lt.mp (Text.le_iff.mp h.1)) fun e => h.2 (Subtype.ext e)

/-- The order does not depend on the places at which the entries were given. -/
theorem ascending_eq {l l' : List AttributeEntry} (hl : l.NodupKeys) (hl' : l'.NodupKeys)
    (h : ∀ k, l.dlookup k = l'.dlookup k) : ascending l = ascending l' := by
  have hperm : l.Perm l' := List.lookup_ext hl hl' fun k v => by rw [h k]
  refine List.Perm.eq_of_pairwise (fun a b _ _ hab hba => absurd hba (lt_asymm hab))
    (pairwise_ascending hl)
    (pairwise_ascending hl') ?_
  exact (perm_ascending l).trans (hperm.trans (perm_ascending l').symm)

end Writing

/-- The value of a name in a mapping and keywords, where the keywords win. -/
def merged (d kw : AttributeMap) (k : AttributeName) : Option AttributeValue :=
  (kw.lookup k).or (d.lookup k)

def attributesOf (d kw : AttributeMap) : Except CallError Value :=
  Function.attributes.call [.dict (d.entries.map AttributeEntry.toEntry)]
    (kw.entries.map AttributeEntry.toKeyword)

theorem attributesOf_eq (d kw : AttributeMap) :
    ∃ l : List AttributeEntry, l.NodupKeys ∧ (∀ k, l.dlookup k = merged d kw k) ∧
      attributesOf d kw =
        if (ascending l).all (·.2.isWritable) then
          .ok (.safe (Text.join [' '] ((ascending l).filterMap AttributeEntry.written?)))
        else .error .tooManyDigits := by
  obtain ⟨l, hputAll, hl, hlookup⟩ := exists_putAll kw.nodupKeys d.nodupKeys
  refine ⟨l, hl, hlookup, ?_⟩
  have hmapping : Entries.ofValue (.dict (d.entries.map AttributeEntry.toEntry)) =
      .ok (d.entries.map AttributeEntry.toEntry) := by
    cases d.entries <;> rfl
  have hkeywords : ((kw.entries.map AttributeEntry.toKeyword).map fun e => (Value.str e.1, e.2)) =
      kw.entries.map AttributeEntry.toEntry := List.map_map
  have hall : Entries.sorted (Entries.putAll ((kw.entries.map AttributeEntry.toKeyword).map
      fun e => (Value.str e.1, e.2)) (d.entries.map AttributeEntry.toEntry)) =
      .ok ((ascending l).map AttributeEntry.toEntry) := by
    rw [hkeywords, hputAll, sorted_map]
  simp only [attributesOf, Function.call, attributes, hmapping, bind, Except.bind, hall,
    entryTexts_map]
  cases (ascending l).all (·.2.isWritable) <;> rfl

theorem all_isWritable_iff {l : List AttributeEntry} (hl : l.NodupKeys) :
    (ascending l).all (·.2.isWritable) = true ↔
      ∀ k n, l.dlookup k = some (.number n) → Text.hasNumeral n = true := by
  simp only [List.all_eq_true, (perm_ascending l).mem_iff, AttributeValue.isWritable_iff]
  constructor
  · exact fun h k n hk => h ⟨k, .number n⟩ (List.of_mem_dlookup hk) n rfl
  · rintro h ⟨k, v⟩ hmem n rfl
    exact h k n (List.mem_dlookup hl hmem)

end Safe

end EmbeddedMarkup
