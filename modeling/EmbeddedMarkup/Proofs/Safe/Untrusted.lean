import EmbeddedMarkup.Proofs.Outcome
import EmbeddedMarkup.Proofs.Safe.Escape
import EmbeddedMarkup.Safe.Call

/-!
# Untrusted values

A value is untrusted if it holds no safe text and no object with markup of its own, at any depth.
What the functions of `Safe.Call` make of untrusted values brings no markup: every piece of the
result is the escaped form of some text.

Two kinds of values are a case apart. Numbers are not escaped, and one of a class of its own may be
written in any words, so these have to be plain. A separator in bytes joins nothing but bytes, and
the written form of no bytes has quotes of its own.

Attributes are the only place where a double quote appears, around each value that is written.
-/

namespace EmbeddedMarkup.Safe

namespace Value

mutual

/-- Whether neither safe text nor an object with its own markup is in a value, and all numbers in
words of their own are plain. -/
def isUntrusted : Value → Bool
  | safe _ => false
  | markup _ => false
  | number _ w => decide (Plain w.shown ∧ Plain w.formatted)
  | list items => areUntrusted items
  | tuple items => areUntrusted items
  | dict entries => entriesUntrusted entries
  | generator items _ => areUntrusted items
  | _ => true

def areUntrusted : List Value → Bool
  | [] => true
  | v :: vs => isUntrusted v && areUntrusted vs

/-- Whether the keys and the values of a mapping are untrusted. -/
def entriesUntrusted : List (Value × Value) → Bool
  | [] => true
  | (k, v) :: rest => isUntrusted k && isUntrusted v && entriesUntrusted rest

end

theorem areUntrusted_iff {vs : List Value} :
    areUntrusted vs = true ↔ ∀ v ∈ vs, v.isUntrusted = true := by
  induction vs with
  | nil => simp [areUntrusted]
  | cons v vs ih => simp [areUntrusted, ih]

theorem entriesUntrusted_iff {es : List (Value × Value)} :
    entriesUntrusted es = true ↔ ∀ e ∈ es, e.1.isUntrusted = true ∧ e.2.isUntrusted = true := by
  induction es with
  | nil => simp [entriesUntrusted]
  | cons e es ih => simp [entriesUntrusted, ih, and_assoc]

theorem isUntrusted_of_mem_items? {v : Value} {items : List Value} {stop : Option Failure}
    (hv : v.isUntrusted = true) (h : v.items? = some (items, stop)) :
    ∀ w ∈ items, w.isUntrusted = true := by
  intro w hw
  cases v with
  | str s =>
      obtain ⟨rfl, -⟩ := Prod.mk.inj (Option.some.inj h)
      obtain ⟨c, -, rfl⟩ := List.mem_map.mp hw
      rfl
  | bytes bs =>
      obtain ⟨rfl, -⟩ := Prod.mk.inj (Option.some.inj h)
      obtain ⟨b, -, rfl⟩ := List.mem_map.mp hw
      rfl
  | list vs =>
      obtain ⟨rfl, -⟩ := Prod.mk.inj (Option.some.inj h)
      exact areUntrusted_iff.mp hv w hw
  | tuple vs =>
      obtain ⟨rfl, -⟩ := Prod.mk.inj (Option.some.inj h)
      exact areUntrusted_iff.mp hv w hw
  | dict es =>
      obtain ⟨rfl, -⟩ := Prod.mk.inj (Option.some.inj h)
      obtain ⟨e, he, rfl⟩ := List.mem_map.mp hw
      exact (entriesUntrusted_iff.mp hv e he).1
  | generator vs stop' =>
      obtain ⟨rfl, -⟩ := Prod.mk.inj (Option.some.inj h)
      exact areUntrusted_iff.mp hv w hw
  | safe s => cases hv
  | _ => cases h

end Value

/-- A text that is the escaped form of some text. -/
def Escaped (t : Text) : Prop := ∃ s, t = escape s

namespace Escaped

theorem of_plain {t : Text} (h : Plain t) : Escaped t := ⟨t, (escape_eq_self_iff.mpr h).symm⟩

theorem append {s t : Text} (hs : Escaped s) (ht : Escaped t) : Escaped (s ++ t) := by
  obtain ⟨s, rfl⟩ := hs
  obtain ⟨t, rfl⟩ := ht
  exact ⟨s ++ t, (escape_append s t).symm⟩

theorem join {sep : Text} (hsep : Plain sep) {ts : List Text} (hts : ∀ t ∈ ts, Escaped t) :
    Escaped (Text.join sep ts) :=
  Text.join_induction ⟨[], rfl⟩ append (of_plain hsep) hts

theorem strip {t : Text} (h : Escaped t) : Escaped (Text.strip t) := by
  obtain ⟨s, rfl⟩ := h
  exact ⟨Text.strip s, strip_escape s⟩

theorem noMarkup {t : Text} (h : Escaped t) : NoMarkup t := by
  obtain ⟨s, rfl⟩ := h
  exact noMarkup_escape s

theorem quote_not_mem {t : Text} (h : Escaped t) : '"' ∉ t := by
  obtain ⟨s, rfl⟩ := h
  exact quote_not_mem_escape s

end Escaped

section Pieces

def Piece.IsEscaped (p : Piece) : Prop := ∃ t, p = .text t ∧ Escaped t

theorem isEscaped_of_written {v : Value} {ps : List Piece} (hv : Plain v.text)
    (h : writtenPieces v = .ok ps) : ∀ p ∈ ps, p.IsEscaped := by
  unfold writtenPieces Value.write Value.checked at h
  split at h
  · obtain rfl := Except.ok.inj h
    exact List.forall_mem_singleton.mpr ⟨_, rfl, .of_plain hv⟩
  · cases h

theorem Branch.isEscaped_of_take? {b : Branch} {v : Value} {ps : List Piece}
    (hv : v.isUntrusted = true) (h : b.take? v = some (.ok ps)) : ∀ p ∈ ps, p.IsEscaped := by
  have hbool (x : Bool) : Plain (Value.bool x).text := by cases x <;> decide
  cases v with
  | none =>
      cases b with
      | constant =>
          obtain rfl := Except.ok.inj (Option.some.inj h)
          simp
      | _ => cases h
  | bool x =>
      cases b with
      | constant =>
          obtain rfl := Except.ok.inj (Option.some.inj h)
          simp
      | number => exact isEscaped_of_written (hbool x) (Option.some.inj h)
      | _ => cases h
  | str s =>
      cases b with
      | text =>
          obtain rfl := Except.ok.inj (Option.some.inj h)
          exact List.forall_mem_singleton.mpr ⟨escape s, rfl, s, rfl⟩
      | _ => cases h
  | int n =>
      cases b with
      | number => exact isEscaped_of_written (v := .int n) (plain_ofInt n) (Option.some.inj h)
      | _ => cases h
  | float x =>
      cases b with
      | number => exact isEscaped_of_written (v := .float x) (plain_shown x) (Option.some.inj h)
      | _ => cases h
  | number n w =>
      cases b with
      | number =>
          exact isEscaped_of_written (v := .number n w) (of_decide_eq_true hv).1 (Option.some.inj h)
      | _ => cases h
  | safe s => cases hv
  | markup w => cases hv
  | _ => cases b <;> cases h

theorem isEscaped_of_firstBranch? {bs : List Branch} {v : Value} {ps : List Piece}
    (hv : v.isUntrusted = true) (h : firstBranch? bs v = some (.ok ps)) :
    ∀ p ∈ ps, p.IsEscaped := by
  obtain ⟨b, -, hb⟩ := List.exists_of_findSome?_eq_some h
  exact Branch.isEscaped_of_take? hv hb

variable {loops : Loops}

theorem isEscaped_of_itemPieces {vs : List Value} {ps : List Piece}
    (hvs : ∀ v ∈ vs, v.isUntrusted = true) (h : itemPieces loops vs = .ok ps) :
    ∀ p ∈ ps, p.IsEscaped := by
  induction vs generalizing ps with
  | nil =>
      obtain rfl := Except.ok.inj h
      simp
  | cons v vs ih =>
      obtain ⟨hv, hvs⟩ := List.forall_mem_cons.mp hvs
      obtain ⟨here, hhere, h⟩ := bind_eq_ok.mp h
      obtain ⟨more, hmore, h⟩ := bind_eq_ok.mp h
      obtain rfl := pure_eq_ok.mp h
      refine List.forall_mem_append.mpr ⟨?_, ih hvs hmore⟩
      cases hfirst : firstBranch? loops.item v with
      | none =>
          rw [hfirst] at hhere
          obtain rfl := Except.ok.inj hhere
          simp
      | some qs =>
          rw [hfirst] at hhere
          exact isEscaped_of_firstBranch? hv (hfirst.trans (congrArg some hhere))

theorem isEscaped_of_argumentPieces {v : Value} {ps : List Piece} (hv : v.isUntrusted = true)
    (h : argumentPieces loops v = .ok ps) : ∀ p ∈ ps, p.IsEscaped := by
  unfold argumentPieces at h
  split at h
  · next qs hqs => exact isEscaped_of_firstBranch? hv (hqs.trans (congrArg some h))
  · split at h
    · obtain rfl := Except.ok.inj h
      simp
    · next items stop hitems =>
        obtain ⟨qs, hqs, h⟩ := bind_eq_ok.mp h
        split at h
        · cases h
        · obtain rfl := pure_eq_ok.mp h
          exact isEscaped_of_itemPieces (Value.isUntrusted_of_mem_items? hv hitems) hqs

theorem isEscaped_of_pieces {vs : List Value} {ps : List Piece}
    (hvs : ∀ v ∈ vs, v.isUntrusted = true) (h : pieces loops vs = .ok ps) :
    ∀ p ∈ ps, p.IsEscaped := by
  induction vs generalizing ps with
  | nil =>
      obtain rfl := Except.ok.inj h
      simp
  | cons v vs ih =>
      obtain ⟨here, hhere, h⟩ := bind_eq_ok.mp h
      obtain ⟨more, hmore, h⟩ := bind_eq_ok.mp h
      obtain rfl := pure_eq_ok.mp h
      intro p hp
      rcases List.mem_append.mp hp with hp | hp
      · exact isEscaped_of_argumentPieces (hvs v (List.mem_cons_self ..)) hhere p hp
      · exact ih (fun w hw => hvs w (List.mem_cons_of_mem _ hw)) hmore p hp

theorem isEscaped_of_stripPieces {ps qs : List Piece} (hps : ∀ p ∈ ps, p.IsEscaped)
    (h : stripPieces ps = .ok qs) : ∀ q ∈ qs, q.IsEscaped := by
  induction ps generalizing qs with
  | nil =>
      obtain rfl := Except.ok.inj h
      simp
  | cons p ps ih =>
      obtain ⟨t, rfl, ht⟩ := hps p (List.mem_cons_self ..)
      obtain ⟨rest, hrest, h⟩ := bind_eq_ok.mp h
      have hrest := ih (fun q hq => hps q (List.mem_cons_of_mem _ hq)) hrest
      rw [← pure_eq_ok.mp h]
      split
      · exact hrest
      · intro q hq
        rcases List.mem_cons.mp hq with rfl | hq
        · exact ⟨_, rfl, ht.strip⟩
        · exact hrest q hq

theorem texts_eq_ok {ps : List Piece} (hps : ∀ p ∈ ps, p.IsEscaped) :
    ∃ ts, texts ps = .ok ts ∧ ∀ t ∈ ts, Escaped t := by
  induction ps with
  | nil => exact ⟨[], rfl, by simp⟩
  | cons p ps ih =>
      obtain ⟨t, rfl, ht⟩ := hps p (List.mem_cons_self ..)
      obtain ⟨ts, hts, hall⟩ := ih fun q hq => hps q (List.mem_cons_of_mem _ hq)
      refine ⟨t :: ts, by simp [texts, hts, bind, Except.bind, pure, Except.pure], ?_⟩
      exact List.forall_mem_cons.mpr ⟨ht, hall⟩

/-- What comes of joining escaped pieces: with a separator in bytes there must be none of them. -/
theorem joinPieces_eq_ok {sep : Value} {ps : List Piece} {v : Value} (hsep : sep.isUntrusted = true)
    (hps : ∀ p ∈ ps, p.IsEscaped) (h : joinPieces sep ps = .ok v) :
    (∃ s ts, sep = .str s ∧ v = .safe (Text.join s ts) ∧ ∀ t ∈ ts, Escaped t) ∨
      ∃ bs, sep = .bytes bs ∧ v = .safe "b''".toList := by
  cases sep with
  | str s =>
      obtain ⟨ts, hts, hall⟩ := texts_eq_ok hps
      obtain ⟨ts', hts', h⟩ := bind_eq_ok.mp h
      obtain rfl : ts = ts' := Except.ok.inj (hts.symm.trans hts')
      exact .inl ⟨s, ts, rfl, (pure_eq_ok.mp h).symm, hall⟩
  | bytes bs =>
      obtain ⟨all, hall, h⟩ := bind_eq_ok.mp h
      cases ps with
      | nil =>
          obtain rfl := Except.ok.inj hall
          exact .inr ⟨bs, rfl, (pure_eq_ok.mp h).symm⟩
      | cons p ps =>
          obtain ⟨t, rfl, -⟩ := hps p (List.mem_cons_self ..)
          cases hall
  | safe s => cases hsep
  | _ => cases h

end Pieces

section Attributes

/-- An attribute as it is written: its name, or its name and its value in quotes. -/
def written (a : Text × Option Text) : Text := a.2.elim a.1 (assignment a.1)

def Entries.Untrusted (es : Entries) : Prop :=
  ∀ e ∈ es, e.1.isUntrusted = true ∧ e.2.isUntrusted = true

namespace Entries

theorem Untrusted.put {es : Entries} (h : es.Untrusted) {k v : Value} (hk : k.isUntrusted = true)
    (hv : v.isUntrusted = true) : (es.put k v).Untrusted := by
  induction es with
  | nil => simpa [Entries.put, Untrusted] using ⟨hk, hv⟩
  | cons e es ih =>
      obtain ⟨he, hes⟩ := List.forall_mem_cons.mp h
      simp only [Entries.put]
      split
      · exact List.forall_mem_cons.mpr ⟨⟨he.1, hv⟩, hes⟩
      · exact List.forall_mem_cons.mpr ⟨he, ih hes⟩

theorem Untrusted.putAll {new es : Entries} (hnew : new.Untrusted) (h : es.Untrusted) :
    (putAll new es).Untrusted := by
  unfold Entries.putAll
  induction new generalizing es with
  | nil => exact h
  | cons e new ih =>
      obtain ⟨he, hnew⟩ := List.forall_mem_cons.mp hnew
      exact ih hnew (h.put he.1 he.2)

theorem untrusted_addItems {es es' : Entries} (h : es.Untrusted) {items : List Value}
    (hitems : ∀ w ∈ items, w.isUntrusted = true) {index : Nat}
    (heq : es.addItems index items = .ok es') : es'.Untrusted := by
  induction items generalizing es index with
  | nil =>
      obtain rfl := Except.ok.inj heq
      exact h
  | cons w items ih =>
      obtain ⟨hw, hitems⟩ := List.forall_mem_cons.mp hitems
      obtain ⟨⟨k, v⟩, hentry, heq⟩ := bind_eq_ok.mp heq
      have hkv : k.isUntrusted = true ∧ v.isUntrusted = true := by
        unfold entryOf at hentry
        split at hentry
        · cases hentry
        · cases hentry
        · next k' v' hw' =>
            split at hentry
            · obtain ⟨rfl, rfl⟩ := Prod.mk.inj (Except.ok.inj hentry)
              have hmem := Value.isUntrusted_of_mem_items? hw hw'
              exact ⟨hmem k' (by simp), hmem v' (by simp)⟩
            · cases hentry
        · cases hentry
      exact ih (h.put hkv.1 hkv.2) hitems heq

theorem untrusted_ofValue {v : Value} (hv : v.isUntrusted = true) {es : Entries}
    (h : Entries.ofValue v = .ok es) : es.Untrusted := by
  unfold Entries.ofValue at h
  split at h
  · obtain rfl := Except.ok.inj h
    simp [Untrusted]
  · split at h
    · obtain rfl := Except.ok.inj h
      exact Value.entriesUntrusted_iff.mp hv
    · split at h
      · cases h
      · next items stop hitems =>
          obtain ⟨es', hes', h⟩ := bind_eq_ok.mp h
          have hes' := untrusted_addItems (by simp [Untrusted])
            (Value.isUntrusted_of_mem_items? hv hitems) hes'
          split at h
          · rwa [← pure_eq_ok.mp h]
          · cases h

theorem Untrusted.sorted {es es' : Entries} (h : es.Untrusted) (heq : es.sorted = .ok es') :
    es'.Untrusted := by
  unfold Entries.sorted at heq
  split at heq
  · obtain rfl := Except.ok.inj heq
    exact fun e he => h e ((List.mergeSort_perm es _).mem_iff.mp he)
  · cases heq

end Entries

theorem attributeName_escaped {k : Value} (hk : k.isUntrusted = true) {name : Text}
    (h : attributeName k = .ok name) : Escaped name := by
  cases k with
  | str s =>
      obtain rfl := Except.ok.inj h
      exact Escaped.strip ⟨s, rfl⟩
  | safe s => cases hk
  | _ => cases h

/-- An attribute with an untrusted value is written as its name, or with the escaped form of a
text. -/
theorem attributeText_eq_ok {name t : Text} {v : Value} (hv : v.isUntrusted = true)
    (h : attributeText name v = .ok (some t)) :
    ∃ value : Option Text, t = written (name, value) ∧ ∀ u ∈ value, Escaped u := by
  have hsome {u : Text} (hu : Escaped u) (ht : assignment name u = t) :
      ∃ value : Option Text, t = written (name, value) ∧ ∀ u ∈ value, Escaped u :=
    ⟨some u, ht.symm, by simpa using hu⟩
  have hassigned {w : Value} (hw : Plain w.formatted) (ht : assigned name w = .ok (some t)) :
      ∃ value : Option Text, t = written (name, value) ∧ ∀ u ∈ value, Escaped u := by
    unfold assigned Value.writeFormatted Value.checked at ht
    split at ht
    · exact hsome (.of_plain hw) (Option.some.inj (Except.ok.inj ht))
    · cases ht
  cases v with
  | bool b =>
      cases b with
      | false => cases h
      | true => exact ⟨none, (Option.some.inj (Except.ok.inj h)).symm, by simp⟩
  | str s => exact hsome ⟨s, rfl⟩ (Option.some.inj (Except.ok.inj h))
  | int n => exact hassigned (w := .int n) (plain_ofInt n) h
  | float x => exact hassigned (w := .float x) (plain_shown x) h
  | number n w => exact hassigned (w := .number n w) (of_decide_eq_true hv).2 h
  | safe s => cases hv
  | markup w => cases hv
  | _ => cases h

theorem entryText_eq_ok {k v : Value} (hk : k.isUntrusted = true) (hv : v.isUntrusted = true)
    {t : Text} (h : entryText k v = .ok (some t)) :
    ∃ a, t = written a ∧ Escaped a.1 ∧ ∀ u ∈ a.2, Escaped u := by
  unfold entryText at h
  split at h
  · cases h
  · obtain ⟨name, hname, h⟩ := bind_eq_ok.mp h
    split at h
    · cases pure_eq_ok.mp h
    · obtain ⟨value, ht, hvalue⟩ := attributeText_eq_ok hv h
      exact ⟨(name, value), ht, attributeName_escaped hk hname, hvalue⟩

theorem entryTexts_eq_ok {es : Entries} (hes : es.Untrusted) {ts : List Text}
    (h : entryTexts es = .ok ts) :
    ∃ as : List (Text × Option Text), ts = as.map written ∧
      ∀ a ∈ as, Escaped a.1 ∧ ∀ u ∈ a.2, Escaped u := by
  induction es generalizing ts with
  | nil =>
      obtain rfl := Except.ok.inj h
      exact ⟨[], rfl, by simp⟩
  | cons e es ih =>
      obtain ⟨he, hes⟩ := List.forall_mem_cons.mp hes
      obtain ⟨here, hhere, h⟩ := bind_eq_ok.mp h
      obtain ⟨more, hmore, h⟩ := bind_eq_ok.mp h
      obtain rfl := pure_eq_ok.mp h
      obtain ⟨as, rfl, has⟩ := ih hes hmore
      cases here with
      | none => exact ⟨as, rfl, has⟩
      | some t =>
          obtain ⟨a, rfl, ha⟩ := entryText_eq_ok he.1 he.2 hhere
          exact ⟨a :: as, rfl, List.forall_mem_cons.mpr ⟨ha, has⟩⟩

theorem noMarkup_written {a : Text × Option Text} (hname : Escaped a.1)
    (hvalue : ∀ u ∈ a.2, Escaped u) : NoMarkup (written a) := by
  obtain ⟨name, value⟩ := a
  have hquote : NoMarkup ['"'] := ⟨by simp, by simp [List.singleton_eq_append_iff]⟩
  cases value with
  | none => exact hname.noMarkup
  | some u =>
      have hequals : NoMarkup ['=', '"'] :=
        (NoMarkup.of_plain (by decide : Plain ['='])).append hquote
      exact ((hname.noMarkup.append hequals).append (hvalue u rfl).noMarkup).append hquote

end Attributes

namespace Function

/-- Whether a function escapes the plain text that it is given. The others take it for markup, or
read it back. -/
def escapes : Function → Bool
  | content => true
  | names => true
  | commaNames => true
  | attributes => true
  | jsonAttribute => true
  | escape => true
  | _ => false

def takesSeparator : Function → Bool
  | content => true
  | names => true
  | _ => false

end Function

/-- A result without markup. Double quotes stand around the values of attributes and nowhere
else. -/
def Harmless (f : Function) (t : Text) : Prop :=
  NoMarkup t ∧
    if f = .attributes then
      ∃ as : List (Text × Option Text), t = Text.join [' '] (as.map written) ∧
        ∀ a ∈ as, '"' ∉ a.1 ∧ ∀ u ∈ a.2, '"' ∉ u
    else '"' ∉ t

theorem Escaped.harmless {t : Text} (h : Escaped t) {f : Function} (hf : f ≠ .attributes) :
    Harmless f t :=
  ⟨h.noMarkup, by rw [if_neg hf]; exact h.quote_not_mem⟩

theorem harmless_attributes {mapping : Value} {kw : Keywords} {v : Value}
    (hmapping : mapping.isUntrusted = true) (hkw : ∀ k ∈ kw, k.2.isUntrusted = true)
    (h : attributes mapping kw = .ok v) : ∃ t, v = .safe t ∧ Harmless .attributes t := by
  obtain ⟨es, hes, h⟩ := bind_eq_ok.mp h
  obtain ⟨es', hes', h⟩ := bind_eq_ok.mp h
  obtain ⟨ts, hts, h⟩ := bind_eq_ok.mp h
  have hnew : Entries.Untrusted (kw.map fun k => (Value.str k.1, k.2)) := by
    intro e he
    obtain ⟨k, hk, rfl⟩ := List.mem_map.mp he
    exact ⟨rfl, hkw k hk⟩
  have hsorted := (hnew.putAll (Entries.untrusted_ofValue hmapping hes)).sorted hes'
  obtain ⟨as, rfl, has⟩ := entryTexts_eq_ok hsorted hts
  refine ⟨_, (pure_eq_ok.mp h).symm, ?_, ?_⟩
  · refine Text.join_induction (.of_plain (by simp [Plain])) .append (.of_plain (by decide)) ?_
    intro t ht
    obtain ⟨a, ha, rfl⟩ := List.mem_map.mp ht
    exact noMarkup_written (has a ha).1 (has a ha).2
  · rw [if_pos rfl]
    refine ⟨as, rfl, fun a ha => ?_⟩
    obtain ⟨hname, hvalue⟩ := has a ha
    exact ⟨hname.quote_not_mem, fun u hu => (hvalue u hu).quote_not_mem⟩

section

variable {f : Function} (hf : f ≠ .attributes) {args : List Value}
  (hargs : ∀ a ∈ args, a.isUntrusted = true)
  {sep v : Value} (hsep : sep.isUntrusted = true) (hplain : ∀ s, sep = .str s → Plain s)
include hf hsep hplain

/-- Joined pieces are harmless, unless a separator in bytes has joined none of them. -/
theorem harmless_joinPieces {ps : List Piece} (hps : ∀ p ∈ ps, p.IsEscaped)
    (h : joinPieces sep ps = .ok v) :
    ∃ t, v = .safe t ∧ (Harmless f t ∨ (∃ bs, sep = .bytes bs) ∧ t = "b''".toList) := by
  rcases joinPieces_eq_ok hsep hps h with ⟨s, ts, rfl, rfl, hts⟩ | ⟨bs, rfl, rfl⟩
  · exact ⟨_, rfl, .inl ((Escaped.join (hplain s rfl) hts).harmless hf)⟩
  · exact ⟨_, rfl, .inr ⟨⟨bs, rfl⟩, rfl⟩⟩

include hargs in
theorem harmless_content (h : content args sep = .ok v) :
    ∃ t, v = .safe t ∧ (Harmless f t ∨ (∃ bs, sep = .bytes bs) ∧ t = "b''".toList) := by
  obtain ⟨ps, hps, h⟩ := bind_eq_ok.mp h
  exact harmless_joinPieces hf hsep hplain (isEscaped_of_pieces hargs hps) h

include hargs in
theorem harmless_names (h : names args sep = .ok v) :
    ∃ t, v = .safe t ∧ (Harmless f t ∨ (∃ bs, sep = .bytes bs) ∧ t = "b''".toList) := by
  obtain ⟨ps, hps, h⟩ := bind_eq_ok.mp h
  have hps := isEscaped_of_pieces hargs hps
  split at h
  · obtain ⟨qs, hqs, h⟩ := bind_eq_ok.mp h
    exact harmless_joinPieces hf hsep hplain (isEscaped_of_stripPieces hps hqs) h
  · cases h

end

/-- What is known of a separator, where the usual one and one that is given as text are plain. -/
theorem separator_eq_ok {usual : String} (husual : Plain usual.toList) {kw : Keywords} {sep : Value}
    (hkw : ∀ k ∈ kw, k.2.isUntrusted = true)
    (hsep : ∀ s, ("sep".toList, Value.str s) ∈ kw → Plain s) (h : separator usual kw = .ok sep) :
    sep.isUntrusted = true ∧ (∀ s, sep = .str s → Plain s) ∧
      ∀ bs, sep = .bytes bs → ("sep".toList, Value.bytes bs) ∈ kw := by
  unfold separator at h
  split at h
  · obtain rfl := Except.ok.inj h
    exact ⟨rfl, fun s hs => Value.str.inj hs ▸ husual, fun bs hbs => by cases hbs⟩
  · split at h
    · next k w hk =>
        obtain rfl := Except.ok.inj h
        subst hk
        refine ⟨hkw ("sep".toList, w) (by simp), fun s hs => hsep s ?_, fun bs hbs => ?_⟩
        · simp [hs]
        · simp [hbs]
    · cases h
  · cases h

theorem single_untrusted {name : String} {args : List Value} {kw : Keywords} {v : Value}
    (hargs : ∀ a ∈ args, a.isUntrusted = true) (hkw : ∀ k ∈ kw, k.2.isUntrusted = true)
    (h : single name args kw = .ok v) : v.isUntrusted = true := by
  unfold single at h
  split at h
  · obtain rfl := Except.ok.inj h
    exact hargs _ (by simp)
  · split at h
    · next k w _ =>
        obtain rfl := Except.ok.inj h
        exact hkw (k, w) (by simp)
    · cases h
  · cases h

/-- No call of a function that escapes lets untrusted values bring in markup. A separator has to be
free of special characters itself; one in bytes joins nothing, which is written as a literal. -/
theorem call_harmless {f : Function} {args : List Value} {kw : Keywords} {v : Value}
    (hf : f.escapes = true) (hargs : ∀ a ∈ args, a.isUntrusted = true)
    (hkw : ∀ k ∈ kw, k.2.isUntrusted = true)
    (hsep : f.takesSeparator = true → ∀ s, ("sep".toList, Value.str s) ∈ kw → Plain s)
    (h : f.call args kw = .ok v) :
    ∃ t, v = .safe t ∧ (Harmless f t ∨
      f.takesSeparator = true ∧ (∃ bs, ("sep".toList, Value.bytes bs) ∈ kw) ∧
      t = "b''".toList) := by
  cases f with
  | content =>
      obtain ⟨sep, hs, h⟩ := bind_eq_ok.mp h
      obtain ⟨huntrusted, hplain, hbytes⟩ := separator_eq_ok (by decide) hkw (hsep rfl) hs
      obtain ⟨t, ht, hres⟩ := harmless_content (f := .content) (by decide) hargs huntrusted hplain h
      exact ⟨t, ht, hres.imp_right fun ⟨⟨bs, hbs⟩, hb⟩ => ⟨rfl, ⟨bs, hbytes bs hbs⟩, hb⟩⟩
  | names =>
      obtain ⟨sep, hs, h⟩ := bind_eq_ok.mp h
      obtain ⟨huntrusted, hplain, hbytes⟩ := separator_eq_ok (by decide) hkw (hsep rfl) hs
      obtain ⟨t, ht, hres⟩ := harmless_names (f := .names) (by decide) hargs huntrusted hplain h
      exact ⟨t, ht, hres.imp_right fun ⟨⟨bs, hbs⟩, hb⟩ => ⟨rfl, ⟨bs, hbytes bs hbs⟩, hb⟩⟩
  | commaNames =>
      simp only [Function.call] at h
      split at h
      · have hcomma : ∀ s, Value.str [','] = .str s → Plain s :=
          fun s hs => Value.str.inj hs ▸ by decide
        obtain ⟨t, ht, hres⟩ := harmless_names (f := .commaNames) (by decide) hargs rfl hcomma h
        exact ⟨t, ht, hres.imp_right fun ⟨⟨bs, hbs⟩, _⟩ => by cases hbs⟩
      · cases h
  | attributes =>
      have hmapping : ∃ mapping, mapping.isUntrusted = true ∧ attributes mapping kw = .ok v := by
        simp only [Function.call] at h
        split at h
        · exact ⟨.none, rfl, h⟩
        · next mapping => exact ⟨mapping, hargs mapping (by simp), h⟩
        · cases h
      obtain ⟨mapping, huntrusted, h⟩ := hmapping
      obtain ⟨t, ht, hres⟩ := harmless_attributes huntrusted hkw h
      exact ⟨t, ht, .inl hres⟩
  | jsonAttribute =>
      obtain ⟨w, hw, h⟩ := bind_eq_ok.mp h
      unfold Safe.jsonAttribute Json.Tree.attribute at h
      cases ht : (Json.Tree.ofValue w).text with
      | error e =>
          rw [ht] at h
          cases h
      | ok t =>
          rw [ht] at h
          exact ⟨escape t, (Except.ok.inj h).symm, .inl (Escaped.harmless ⟨t, rfl⟩ (by decide))⟩
  | escape =>
      obtain ⟨w, hw, h⟩ := bind_eq_ok.mp h
      have hw := single_untrusted hargs hkw hw
      cases w with
      | str s =>
          exact ⟨Safe.escape s, (Except.ok.inj h).symm,
            .inl (Escaped.harmless ⟨s, rfl⟩ (by decide))⟩
      | safe s => cases hw
      | _ => cases h
  | _ => cases hf

/-- Texts that look like markup, given as arguments and inside a list, are harmless names. -/
theorem call_harmless_names :
    Function.names.call [.str " <b>&amp; ".toList, .list [.str "it's".toList, .int 3]]
        [("sep".toList, .str "/".toList)] = .ok (.safe "&lt;b&gt;&amp;amp;/it&#39;s".toList) ∧
      Harmless .names "&lt;b&gt;&amp;amp;/it&#39;s".toList := by
  have hcall : Function.names.call [.str " <b>&amp; ".toList, .list [.str "it's".toList, .int 3]]
      [("sep".toList, .str "/".toList)] = .ok (.safe "&lt;b&gt;&amp;amp;/it&#39;s".toList) := rfl
  obtain ⟨t, ht, hres⟩ :=
    call_harmless (f := .names) rfl (by simp [Value.isUntrusted, Value.areUntrusted])
    (by simp [Value.isUntrusted]) (fun _ s hs => by
      obtain rfl : s = "/".toList := by simpa using hs
      decide) hcall
  obtain rfl := Value.safe.inj ht
  exact ⟨hcall, hres.resolve_right fun ⟨_, ⟨bs, hbs⟩, _⟩ => by simp at hbs⟩

/-- Bytes that join nothing are written as a literal, which has single quotes, and a number in words
of its own is written in these, whatever they are. -/
theorem content_bytes_separator :
    ((∀ k ∈ [("sep".toList, Value.bytes [])], k.2.isUntrusted = true) ∧
      Function.content.call [] [("sep".toList, .bytes [])] = .ok (.safe "b''".toList) ∧
      ¬ Harmless .content "b''".toList) ∧
    ∀ n w, Function.content.call [.number n w] [] = .ok (.safe w.shown) := by
  refine ⟨⟨by simp [Value.isUntrusted], rfl, fun h => ?_⟩, fun n w => ?_⟩
  · exact (h.1.delimiters '\'' (by decide)).2.2 rfl
  · have hjoin : Text.join [] [w.shown] = w.shown := by simp [Text.join]
    exact congrArg (fun t => Except.ok (Value.safe t)) hjoin

end EmbeddedMarkup.Safe
