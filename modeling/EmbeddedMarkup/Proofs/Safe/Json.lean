import EmbeddedMarkup.Proofs.Lists
import EmbeddedMarkup.Proofs.Safe.Escape
import EmbeddedMarkup.Proofs.Safe.Unescape
import EmbeddedMarkup.Proofs.Text.Joining
import Mathlib.Data.List.Nodup

/-!
# JSON texts read back

`Json.read?` reads a JSON text by the grammar: a value with white space around its tokens, strings
whose escapes may be code units of a pair, and numbers with or without a fraction and an exponent.
What counts as white space is a parameter, so that a text without any can be told from others.

The JSON text of a value is read back as the value, and so is what becomes of it in an attribute,
once its references are replaced (`jsonAttribute_read_back`). A string that holds both halves of a
pair, one after the other, is the exception: it is written like the character that the pair stands
for, and read back as that (`Json.paired`). Strings and containers are closed by their own
delimiters, and behind a number comes nothing that could belong to it (`Json.Follows`), so each part
is read on its own whatever comes after it.
-/

namespace EmbeddedMarkup.Safe

open Reference (isDecimal isHex hexValue numberOf)

namespace Json

section Reader

/-- The white space that may stand around tokens. -/
def isWhite (c : Char) : Bool := c == ' ' || c == '\t' || c == '\n' || c == '\r'

/-- The escapes of one letter, and what they stand for. -/
def shortEscapes : List (Char × Char) :=
  [('"', '"'), ('\\', '\\'), ('/', '/'), ('b', '\x08'), ('f', '\x0c'), ('n', '\n'), ('r', '\r'),
    ('t', '\t')]

/-- A code unit in four hexadecimal digits, and the text after it. -/
def unit? : Text → Option (Nat × Text)
  | a :: b :: c :: d :: t =>
      if [a, b, c, d].all isHex then some (numberOf 16 [a, b, c, d], t) else none
  | _ => none

abbrev IsHigh (n : Nat) : Prop := 0xd800 ≤ n ∧ n < 0xdc00

abbrev IsLow (n : Nat) : Prop := 0xdc00 ≤ n ∧ n < 0xe000

/-- The code point that a pair of units stands for. -/
def combine (high low : Nat) : Nat := 0x10000 + (high - 0xd800) * 0x400 + (low - 0xdc00)

/-- The second unit of a pair, and the text after it. -/
def lowUnit? (t : Text) : Option (Nat × Text) := do
  let (n, t) ← unit? (← Text.dropLiteral? ['\\', 'u'] t)
  if IsLow n then return (n, t) else none

/-- The code point that an escape stands for, and the text after it. A unit that is not the first of
a pair stands for itself. -/
def escaped? : Text → Option (Nat × Text)
  | [] => none
  | 'u' :: t => do
      let (n, t) ← unit? t
      if IsHigh n then
        match lowUnit? t with
        | some (m, t) => return (combine n m, t)
        | none => return (n, t)
      else return (n, t)
  | c :: t => (shortEscapes.lookup c).map (·.toNat, t)

/-- The code points of a string up to its closing quote, and the text after it. -/
def string? : Nat → Text → Option (List Nat × Text)
  | 0, _ => none
  | _ + 1, [] => none
  | n + 1, c :: t =>
      if c = '"' then some ([], t)
      else if c = '\\' then do
        let (d, t) ← escaped? t
        let (s, t) ← string? n t
        return (d :: s, t)
      else if c < ' ' then none
      else do
        let (s, t) ← string? n t
        return (c.toNat :: s, t)

def digits? (t : Text) : Option (Text × Text) :=
  let ds := t.takeWhile isDecimal
  if ds = [] then none else some (ds, t.drop ds.length)

/-- The whole part of a number, in which nothing follows a leading zero. -/
def whole? (t : Text) : Option (Text × Text) := do
  let (ds, t) ← digits? t
  if ds.head? = some '0' ∧ ds ≠ ['0'] then none else return (ds, t)

/-- The digits of a fraction; there may be none. -/
def fraction? : Text → Option (Text × Text)
  | '.' :: t => digits? t
  | t => some ([], t)

def exponent? : Text → Option (Option Int × Text)
  | [] => some (none, [])
  | c :: t =>
      if c = 'e' ∨ c = 'E' then do
        let (ds, r) ← digits? (if t.head? = some '-' ∨ t.head? = some '+' then t.tail else t)
        let n : Int := numberOf 10 ds
        return (some (if t.head? = some '-' then -n else n), r)
      else some (none, c :: t)

/-- A number without a fraction and an exponent is a whole one. -/
def numberValue (negative : Bool) (whole fraction : Text) (exponent : Option Int) : Tree :=
  let m := numberOf 10 (whole ++ fraction)
  if fraction = [] ∧ exponent = none then .int (if negative then -m else m)
  else
    let e := exponent.getD 0 - fraction.length
    let x := Float.ofScientific m (e < 0) e.natAbs
    .float (if negative then -x else x)

def number? (t : Text) : Option (Tree × Text) := do
  let negative := t.head? = some '-'
  let (whole, t) ← whole? (if negative then t.tail else t)
  let (fraction, t) ← fraction? t
  let (exponent, t) ← exponent? t
  return (numberValue negative whole fraction exponent, t)

/-- The three names, with what they stand for. -/
def names : List (Text × Tree) :=
  [("null".toList, .null), ("true".toList, .bool true), ("false".toList, .bool false)]

def name? (t : Text) : Option (Tree × Text) :=
  names.findSome? fun (name, v) => (Text.dropLiteral? name t).map (v, ·)

def entry (m : List Nat × Tree) : Tree × Tree := (.string m.1, m.2)

/-- The members with one more, which takes the place of another of its name. -/
def put (k : List Nat) (v : Tree) : List (List Nat × Tree) → List (List Nat × Tree)
  | [] => [(k, v)]
  | m :: ms => if m.1 = k then (k, v) :: ms else m :: put k v ms

/-- The object of some members, of which the later count. -/
def objectOf (ms : List (List Nat × Tree)) : Tree :=
  .object ((ms.foldl (fun acc m => put m.1 m.2 acc) []).map entry)

variable (white : Char → Bool)

def skip (t : Text) : Text := t.dropWhile white

/-- Parts with commas between them up to the closing mark, and the text after it. The number bounds
the parts. -/
def parts? {α : Type} (part : Text → Option (α × Text)) (close : Char) :
    Nat → Text → Option (List α × Text)
  | 0, _ => none
  | n + 1, t => do
      let (a, t) ← part (skip white t)
      match skip white t with
      | [] => none
      | c :: t =>
          if c = close then return ([a], t)
          else if c = ',' then
            let (as, t) ← parts? part close n t
            return (a :: as, t)
          else none

/-- A name and its value, and the text after them. -/
def member? (value : Text → Option (Tree × Text)) (n : Nat) (t : Text) :
    Option ((List Nat × Tree) × Text) := do
  let (k, t) ← string? n (← Text.dropLiteral? ['"'] t)
  let (v, t) ← value (skip white (← Text.dropLiteral? [':'] (skip white t)))
  return ((k, v), t)

/-- A value, and the text after it. The number bounds its length. -/
def value? : Nat → Text → Option (Tree × Text)
  | 0, _ => none
  | n + 1, t =>
      match t with
      | '"' :: t => (string? n t).map fun p => (.string p.1, p.2)
      | '[' :: t =>
          match skip white t with
          | ']' :: t => some (.list [], t)
          | t => (parts? white (value? n) ']' n t).map fun p => (.list p.1, p.2)
      | '{' :: t =>
          match skip white t with
          | '}' :: t => some (.object [], t)
          | t =>
              (parts? white (member? white (value? n) n) '}' n t).map fun p => (objectOf p.1, p.2)
      | t => (name? t).or (number? t)

def read? (t : Text) : Option Tree := do
  let (v, r) ← value? white t.length (skip white t)
  if skip white r = [] then some v else none

end Reader

section Digits

variable {b : Nat}

theorem exists_digitChar (hb : 1 < b) {n : Nat} {c : Char} (hc : c ∈ Nat.toDigits b n) :
    ∃ d < b, c = Nat.digitChar d := by
  induction n using Nat.strongRecOn with
  | ind n ih =>
      rw [Nat.toDigits_eq_if hb] at hc
      split at hc
      · next hlt => exact ⟨n, hlt, List.mem_singleton.mp hc⟩
      · next hle =>
          rcases List.mem_append.mp hc with hc | hc
          · exact ih (n / b) (Nat.div_lt_self (by omega) hb) hc
          · exact ⟨n % b, Nat.mod_lt n (by omega), List.mem_singleton.mp hc⟩

theorem hexValue_digitChar :
    ∀ d < 16, isHex (Nat.digitChar d) = true ∧ hexValue (Nat.digitChar d) = d := by
  decide

theorem isDecimal_digitChar : ∀ d < 10, isDecimal (Nat.digitChar d) = true := by decide

theorem numberOf_append (s : Text) (c : Char) :
    numberOf b (s ++ [c]) = b * numberOf b s + hexValue c := by
  simp [numberOf]

theorem numberOf_toDigits (hb : 1 < b) (hle : b ≤ 16) (n : Nat) :
    numberOf b (Nat.toDigits b n) = n := by
  induction n using Nat.strongRecOn with
  | ind n ih =>
      rw [Nat.toDigits_eq_if hb]
      split
      · next hlt => simp [numberOf, (hexValue_digitChar n (by omega)).2]
      · next hge =>
          have hmod : n % b < b := Nat.mod_lt n (by omega)
          rw [numberOf_append, ih (n / b) (Nat.div_lt_self (by omega) hb),
            (hexValue_digitChar (n % b) (by omega)).2, Nat.div_add_mod]

theorem eq_zero_of_head?_toDigits (hb : 1 < b) {n : Nat} (h : (Nat.toDigits b n).head? = some '0') :
    n = 0 := by
  induction n using Nat.strongRecOn with
  | ind n ih =>
      rw [Nat.toDigits_eq_if hb] at h
      split at h
      · exact Nat.digitChar_eq_zero.mp (Option.some.inj h)
      · next hge =>
          rw [List.head?_append_of_ne_nil _ Nat.toDigits_ne_nil] at h
          have hzero := ih (n / b) (Nat.div_lt_self (by omega) hb) h
          rw [Nat.div_eq_zero_iff] at hzero
          omega

theorem unit?_hexDigits {n : Nat} (h : n < 0x10000) (t : Text) :
    unit? (Text.hexDigits 4 n ++ t) = some (n, t) := by
  have hlength : (Nat.toDigits 16 n).length ≤ 4 :=
    (Nat.length_toDigits_le_iff (by decide) (by decide)).mpr h
  have hfour : (Text.hexDigits 4 n).length = 4 := by
    simp only [Text.hexDigits, List.length_append, List.length_replicate]
    omega
  have hall : (Text.hexDigits 4 n).all isHex = true := by
    simp only [Text.hexDigits, List.all_append, Bool.and_eq_true, List.all_eq_true]
    refine ⟨fun c hc => List.eq_of_mem_replicate hc ▸ by decide, fun c hc => ?_⟩
    obtain ⟨d, hd, rfl⟩ := exists_digitChar (by decide) hc
    exact (hexValue_digitChar d hd).1
  have hzeros (k : Nat) : numberOf 16 (List.replicate k '0') = 0 := by
    induction k with
    | zero => rfl
    | succ k ih => rw [List.replicate_succ', numberOf_append, ih]; rfl
  have hvalue : numberOf 16 (Text.hexDigits 4 n) = n := by
    have hdigits := numberOf_toDigits (b := 16) (by decide) (by decide) n
    have hsplit : numberOf 16 (Text.hexDigits 4 n) =
        (Nat.toDigits 16 n).foldl (fun n c => 16 * n + hexValue c)
        (numberOf 16 (List.replicate _ '0')) :=
      List.foldl_append ..
    rw [hsplit, hzeros]
    exact hdigits
  obtain ⟨a, b, c, d, habcd⟩ := List.length_eq_four.mp hfour
  rw [habcd] at hall hvalue
  rw [habcd, ← hvalue]
  exact if_pos hall

end Digits

section Strings

theorem string?_plain {n : Nat} {c : Char} (hquote : c ≠ '"') (hback : c ≠ '\\') (hplain : ¬c < ' ')
    (t : Text) : string? (n + 1) (c :: t) = (string? n t).map fun p => (c.toNat :: p.1, p.2) := by
  rw [string?, if_neg hquote, if_neg hback, if_neg hplain]
  cases string? n t <;> rfl

theorem string?_escape {n m : Nat} {w t : Text} (h : escaped? w = some (m, t)) :
    string? (n + 1) ('\\' :: w) = (string? n t).map fun p => (m :: p.1, p.2) := by
  rw [string?, if_neg (by decide), if_pos rfl, h]
  change (string? n t >>= fun p => some (m :: p.1, p.2)) = _
  cases string? n t <;> rfl

theorem escaped?_unit {n : Nat} (h : n < 0x10000) {t : Text} (ht : IsHigh n → lowUnit? t = none) :
    escaped? ('u' :: (Text.hexDigits 4 n ++ t)) = some (n, t) := by
  rw [escaped?, unit?_hexDigits h]
  change (if IsHigh n then _ else _) = _
  split_ifs with hhigh
  · rw [ht hhigh]
    rfl
  · rfl

theorem lowUnit?_unitText {n : Nat} (h : n < 0x10000) (t : Text) :
    lowUnit? (unitText n ++ t) = if IsLow n then some (n, t) else none := by
  have hdrop : Text.dropLiteral? ['\\', 'u'] (unitText n ++ t) = some (Text.hexDigits 4 n ++ t) :=
    Text.dropLiteral?_eq_some_iff.mpr rfl
  rw [lowUnit?, hdrop]
  change (unit? (Text.hexDigits 4 n ++ t) >>= _) = _
  rw [unit?_hexDigits h]
  rfl

theorem escaped?_pair {high low : Nat} (hhigh : IsHigh high) (hlow : IsLow low) (t : Text) :
    escaped? ('u' :: (Text.hexDigits 4 high ++ (unitText low ++ t))) =
      some (combine high low, t) := by
  rw [escaped?, unit?_hexDigits (by omega)]
  change (if IsHigh high then _ else _) = _
  rw [if_pos hhigh, lowUnit?_unitText (by omega), if_pos hlow]
  rfl

/-- The two units of a code point beyond the basic plane are those of a pair, which stands for
it. -/
theorem unit_pair {n : Nat} (h : 0x10000 ≤ n) (hlt : n < 0x110000) :
    ∃ high low, 0xd800 + (n - 0x10000) / 0x400 = high ∧ 0xdc00 + (n - 0x10000) % 0x400 = low ∧
      IsHigh high ∧ IsLow low ∧ combine high low = n := by
  refine ⟨_, _, rfl, rfl, ?_, ?_, ?_⟩
  · omega
  · omega
  · unfold combine
    omega

/-- A code point is written as an escape of one letter, as the character that it is, by its code
unit or by the two of a pair. -/
theorem codeText_cases {n : Nat} (h : n < 0x110000) :
    (∃ c d, n = c.toNat ∧ (d, c) ∈ shortEscapes ∧ codeText n = ['\\', d]) ∨
      (∃ c, n = c.toNat ∧ (c ≠ '"' ∧ c ≠ '\\' ∧ ' ' ≤ c ∧ c ≤ '~') ∧ codeText n = [c]) ∨
      (n < 0x10000 ∧ codeText n = unitText n) ∨
      ∃ high low, codeText n = unitText high ++ unitText low ∧ IsHigh high ∧ IsLow low ∧
        combine high low = n := by
  unfold codeText
  cases hshort : shortEscape? n with
  | some d =>
      obtain ⟨⟨c, e⟩, hmem, hc⟩ := List.exists_of_findSome?_eq_some hshort
      obtain ⟨hn, he⟩ := Option.ite_none_right_eq_some.mp hc
      obtain rfl := Option.some.inj he
      have hletters : ∀ p ∈ shortForms, (p.2, p.1) ∈ shortEscapes :=
        List.all_iff_forall_prop.mp (by decide)
      exact .inl ⟨c, e, hn, hletters _ hmem, rfl⟩
  | none =>
      have hletters := List.findSome?_eq_none_iff.mp hshort
      by_cases hplain : ' '.toNat ≤ n ∧ n ≤ '~'.toNat
      · have hvalid : n.isValidChar := .inl (Nat.lt_of_le_of_lt hplain.2 (by decide))
        have hn : n = (Char.ofNat n).toNat := by
          rw [Char.ofNat, dif_pos hvalid]
          rfl
        have hother {c d : Char} (hmem : (c, d) ∈ shortForms) : Char.ofNat n ≠ c := by
          rintro rfl
          exact absurd (hletters _ hmem) (by simp [← hn])
        have hbounds : ' '.toNat ≤ (Char.ofNat n).toNat ∧ (Char.ofNat n).toNat ≤ '~'.toNat := by
          rwa [← hn]
        exact .inr (.inl ⟨Char.ofNat n, hn, ⟨hother (.head _), hother (.tail _ (.head _)), hbounds⟩,
          if_pos hplain⟩)
      by_cases hbasic : n < 0x10000
      · exact .inr (.inr (.inl ⟨hbasic, (if_neg hplain).trans (if_pos hbasic)⟩))
      · obtain ⟨high, low, rfl, rfl, hpair⟩ := unit_pair (Nat.le_of_not_lt hbasic) h
        exact .inr (.inr (.inr ⟨_, _, (if_neg hplain).trans (if_neg hbasic), hpair⟩))

theorem escaped?_short {c d : Char} (h : (d, c) ∈ shortEscapes) (t : Text) :
    escaped? (d :: t) = some (c.toNat, t) := by
  simp only [shortEscapes, List.mem_cons, Prod.mk.injEq, List.not_mem_nil, or_false] at h
  rcases h with ⟨rfl, rfl⟩ | ⟨rfl, rfl⟩ | ⟨rfl, rfl⟩ | ⟨rfl, rfl⟩ | ⟨rfl, rfl⟩ | ⟨rfl, rfl⟩ |
    ⟨rfl, rfl⟩ | ⟨rfl, rfl⟩
  all_goals rfl

theorem string?_codeText (k : Nat) {n : Nat} (h : n < 0x110000) {t : Text}
    (ht : IsHigh n → lowUnit? t = none) :
    string? (k + 1) (codeText n ++ t) = (string? k t).map fun p => (n :: p.1, p.2) := by
  rcases codeText_cases h with ⟨c, d, rfl, hd, htext⟩ |
    ⟨c, rfl, ⟨hquote, hback, hplain, -⟩, htext⟩ | ⟨hbasic, htext⟩ |
      ⟨high, low, htext, hhigh, hlow, rfl⟩
  · rw [htext]
    exact string?_escape (escaped?_short hd t)
  · rw [htext]
    exact string?_plain hquote hback (Char.not_lt.mpr hplain) t
  · rw [htext]
    exact string?_escape (escaped?_unit hbasic ht)
  · rw [htext, List.append_assoc]
    exact string?_escape (escaped?_pair hhigh hlow t)

theorem codeText_half {n : Nat} (h : 0xd800 ≤ n ∧ n < 0xe000) : codeText n = unitText n := by
  have hletters : ∀ p ∈ shortForms, p.1.toNat < 0xd800 := List.all_iff_forall_prop.mp (by decide)
  have hshort : shortEscape? n = none :=
    List.findSome?_eq_none_iff.mpr fun p hp => if_neg (by have := hletters p hp; omega)
  have hplain : ¬(' '.toNat ≤ n ∧ n ≤ '~'.toNat) := fun hn =>
    absurd (hn.2.trans (by decide : '~'.toNat ≤ 0x7f)) (by omega)
  rw [codeText, hshort]
  exact (if_neg hplain).trans (if_pos (by omega))

/-- What is written for a code point is taken for the second unit of a pair only if it is one. -/
theorem lowUnit?_codeText {n : Nat} (h : n < 0x110000) (hlow : ¬IsLow n) (t : Text) :
    lowUnit? (codeText n ++ t) = none := by
  have hletters : ∀ p ∈ shortEscapes, 'u' ≠ p.1 := List.all_iff_forall_prop.mp (by decide)
  rcases codeText_cases h with ⟨c, d, -, hd, htext⟩ | ⟨c, -, ⟨-, hback, -⟩, htext⟩ |
    ⟨hbasic, htext⟩ | ⟨high, low, htext, hhigh, -⟩
  · simp [htext, lowUnit?, Text.dropLiteral?, hletters _ hd]
  · simp [htext, lowUnit?, Text.dropLiteral?, hback.symm]
  · rw [htext, lowUnit?_unitText hbasic, if_neg hlow]
  · rw [htext, List.append_assoc, lowUnit?_unitText (by omega), if_neg (by omega)]

theorem codeText_ne_nil {n : Nat} (h : n < 0x110000) : codeText n ≠ [] := by
  intro hnil
  have hread := string?_codeText 0 h (t := ['"']) fun _ => rfl
  rw [hnil] at hread
  cases hread

/-- The code points with the two halves of each pair put together. -/
def paired : List Nat → List Nat
  | high :: low :: ns =>
      if IsHigh high ∧ IsLow low then combine high low :: paired ns else high :: paired (low :: ns)
  | ns => ns

example : paired [0xde00, 0xd83d, 0xd83d, 0xde00] = [0xde00, 0xd83d, 0x1f600] := by decide

theorem paired_eq_self {ns : List Nat} (h : ns.IsChain fun a b => ¬(IsHigh a ∧ IsLow b)) :
    paired ns = ns := by
  fun_induction paired ns with
  | case1 high low ns hpair ih => exact absurd hpair (List.isChain_cons_cons.mp h).1
  | case2 high low ns hpair ih => rw [ih (List.isChain_cons_cons.mp h).2]
  | case3 ns => rfl

theorem string?_flatMap_codeText {ns : List Nat} (hns : ∀ n ∈ ns, n < 0x110000) {k : Nat}
    (hk : (ns.flatMap codeText).length < k) (t : Text) :
    string? k (ns.flatMap codeText ++ '"' :: t) = some (paired ns, t) := by
  have hlength {n : Nat} (hn : n < 0x110000) : 0 < (codeText n).length :=
    List.length_pos_of_ne_nil (codeText_ne_nil hn)
  -- The cases are those of `paired`: a pair is read in one step, and so is a code with no half
  -- after it.
  fun_induction paired ns generalizing k with
  | case1 high low ns hpair ih =>
      obtain ⟨hhigh, hrest⟩ := List.forall_mem_cons.mp hns
      obtain ⟨hlow, hns⟩ := List.forall_mem_cons.mp hrest
      obtain ⟨k, rfl⟩ := Nat.exists_eq_add_one_of_ne_zero (Nat.ne_zero_of_lt hk)
      have hpositive := hlength hhigh
      simp only [List.flatMap_cons, List.length_append] at hk
      rw [List.flatMap_cons, List.flatMap_cons, List.append_assoc, List.append_assoc,
        codeText_half (by omega), codeText_half (n := low) (by omega)]
      refine (string?_escape (escaped?_pair hpair.1 hpair.2 _)).trans ?_
      rw [ih hns (by omega)]
      rfl
  | case2 high low ns hpair ih =>
      obtain ⟨hhigh, hrest⟩ := List.forall_mem_cons.mp hns
      obtain ⟨k, rfl⟩ := Nat.exists_eq_add_one_of_ne_zero (Nat.ne_zero_of_lt hk)
      have hpositive := hlength hhigh
      have hnext : IsHigh high → lowUnit? ((low :: ns).flatMap codeText ++ '"' :: t) = none := by
        intro h
        rw [List.flatMap_cons, List.append_assoc]
        exact lowUnit?_codeText (hrest low (by simp)) (fun hlow => hpair ⟨h, hlow⟩) _
      rw [List.flatMap_cons, List.length_append] at hk
      rw [List.flatMap_cons, List.append_assoc, string?_codeText k hhigh hnext,
        ih hrest (by omega)]
      rfl
  | case3 ns hshort =>
      obtain ⟨k, rfl⟩ := Nat.exists_eq_add_one_of_ne_zero (Nat.ne_zero_of_lt hk)
      match ns with
      | [] => rfl
      | [n] =>
          have hn : n < 0x110000 := hns n (by simp)
          have hpositive := hlength hn
          simp only [List.flatMap_cons, List.flatMap_nil, List.append_nil] at hk ⊢
          obtain ⟨k, rfl⟩ := Nat.exists_eq_add_one_of_ne_zero (show k ≠ 0 by omega)
          exact string?_codeText (k + 1) hn fun _ => rfl
      | a :: b :: ns => exact absurd rfl (hshort a b ns)

end Strings

section Numbers

/-- The text does not go on with something that could belong to a number before it. -/
def Follows (t : Text) : Prop := ∀ c ∈ t.head?, isDecimal c = false ∧ c ≠ '.' ∧ c ≠ 'e' ∧ c ≠ 'E'

theorem digits?_append {ds rest : Text} (hne : ds ≠ []) (hds : ∀ c ∈ ds, isDecimal c = true)
    (hrest : Follows rest) :
    digits? (ds ++ rest) = some (ds, rest) := by
  have htake : (ds ++ rest).takeWhile isDecimal = ds := by
    cases rest with
    | nil => simpa using hds
    | cons d rest => exact Text.takeWhile_append_cons hds (hrest d rfl).1 rest
  simp [digits?, htake, hne]

theorem ofNat_ne_nil (n : Nat) : Text.ofNat n ≠ [] := Nat.toDigits_ne_nil

theorem isDecimal_of_mem_ofNat {n : Nat} {c : Char} (hc : c ∈ Text.ofNat n) :
    isDecimal c = true := by
  obtain ⟨d, hd, rfl⟩ := exists_digitChar (by decide) hc
  exact isDecimal_digitChar d hd

theorem whole?_ofNat (n : Nat) {rest : Text} (hrest : Follows rest) :
    whole? (Text.ofNat n ++ rest) = some (Text.ofNat n, rest) := by
  have hzero : ¬((Text.ofNat n).head? = some '0' ∧ Text.ofNat n ≠ ['0']) := by
    rintro ⟨hhead, hne⟩
    obtain rfl := eq_zero_of_head?_toDigits (by decide) hhead
    exact hne rfl
  rw [whole?, digits?_append (ofNat_ne_nil n) (fun _ => isDecimal_of_mem_ofNat) hrest]
  exact if_neg hzero

theorem Follows.fraction? {t : Text} (h : Follows t) : fraction? t = some ([], t) := by
  unfold Json.fraction?
  split
  · exact absurd rfl (h _ rfl).2.1
  · rfl

theorem Follows.exponent? {t : Text} (h : Follows t) : exponent? t = some (none, t) := by
  cases t with
  | nil => rfl
  | cons c t => simp [Json.exponent?, h c rfl]

theorem head?_ofInt (m : Int) (rest : Text) : (Text.ofInt m ++ rest).head? = some '-' ↔ m < 0 := by
  unfold Text.ofInt
  split_ifs with hm
  · simp [hm]
  · refine iff_of_false (fun hhead => ?_) hm
    rw [List.head?_append_of_ne_nil _ (ofNat_ne_nil _)] at hhead
    exact absurd (isDecimal_of_mem_ofNat (List.mem_of_mem_head? hhead)) (by decide)

theorem number?_ofInt (m : Int) {rest : Text} (hrest : Follows rest) :
    number? (Text.ofInt m ++ rest) = some (Tree.int m, rest) := by
  have hvalue : (numberOf 10 (Text.ofNat m.natAbs) : Int) = m.natAbs :=
    congrArg _ (numberOf_toDigits (by decide) (by decide) m.natAbs)
  have hdigits : (if m < 0 then (Text.ofInt m ++ rest).tail else Text.ofInt m ++ rest) =
      Text.ofNat m.natAbs ++ rest := by
    unfold Text.ofInt
    split_ifs <;> rfl
  simp only [number?, head?_ofInt, hdigits, whole?_ofNat _ hrest, hrest.fraction?, hrest.exponent?,
    numberValue, List.append_nil, hvalue, decide_eq_true_eq, Option.bind_eq_bind, Option.bind_some,
    Option.pure_def, and_self, if_true]
  split_ifs with hm <;> congr <;> omega

end Numbers

section Printable

/-- A text of printable ASCII characters. -/
def Printable (t : Text) : Prop := ∀ c ∈ t, ' ' ≤ c ∧ c ≤ '~'

theorem Printable.append {s t : Text} (hs : Printable s) (ht : Printable t) :
    Printable (s ++ t) := by
  intro c hc
  rcases List.mem_append.mp hc with hc | hc
  · exact hs c hc
  · exact ht c hc

theorem Printable.cons {c : Char} {t : Text} (hc : ' ' ≤ c ∧ c ≤ '~') (ht : Printable t) :
    Printable (c :: t) :=
  List.forall_mem_cons.mpr ⟨hc, ht⟩

theorem printable_digitChar : ∀ d < 16, ' ' ≤ Nat.digitChar d ∧ Nat.digitChar d ≤ '~' := by decide

theorem printable_toDigits {b : Nat} (hb : 1 < b) (hle : b ≤ 16) (n : Nat) :
    Printable (Nat.toDigits b n) := by
  intro c hc
  obtain ⟨d, hd, rfl⟩ := exists_digitChar hb hc
  exact printable_digitChar d (by omega)

theorem printable_ofInt (m : Int) : Printable (Text.ofInt m) := by
  unfold Text.ofInt
  split_ifs
  · exact .cons (by decide) (printable_toDigits (by decide) (by decide) _)
  · exact printable_toDigits (by decide) (by decide) _

theorem printable_unitText (n : Nat) : Printable (unitText n) := by
  have hzeros : Printable (List.replicate (4 - (Nat.toDigits 16 n).length) '0') :=
    fun c hc => List.eq_of_mem_replicate hc ▸ by decide
  exact .cons (by decide)
    (.cons (by decide) (hzeros.append (printable_toDigits (by decide) (by decide) n)))

theorem printable_codeText {n : Nat} (h : n < 0x110000) : Printable (codeText n) := by
  have hletters : ∀ p ∈ shortEscapes, ' ' ≤ p.1 ∧ p.1 ≤ '~' :=
    List.all_iff_forall_prop.mp (by decide)
  rcases codeText_cases h with ⟨c, d, -, hd, htext⟩ | ⟨c, -, ⟨-, -, hplain⟩, htext⟩ | ⟨-, htext⟩ |
    ⟨high, low, htext, -⟩
  · exact htext ▸ .cons (by decide) (.cons (hletters _ hd) (List.forall_mem_nil _))
  · exact htext ▸ .cons hplain (List.forall_mem_nil _)
  · exact htext ▸ printable_unitText _
  · exact htext ▸ (printable_unitText _).append (printable_unitText _)

theorem printable_stringText {ns : List Nat} (h : ∀ n ∈ ns, n < 0x110000) :
    Printable (stringText ns) := by
  have hns : Printable (ns.flatMap codeText) := by
    intro c hc
    obtain ⟨n, hn, hc⟩ := List.mem_flatMap.mp hc
    exact printable_codeText (h n hn) c hc
  exact .cons (by decide) (hns.append (.cons (by decide) (List.forall_mem_nil _)))

end Printable

section Trees

mutual

/-- What is read back: each string with its pairs put together. -/
def Tree.paired : Tree → Tree
  | string ns => string (Json.paired ns)
  | list items => list (pairedItems items)
  | object members => object (pairedMembers members)
  | t => t

def Tree.pairedItems : List Tree → List Tree
  | [] => []
  | t :: ts => t.paired :: pairedItems ts

def Tree.pairedMembers : List (Tree × Tree) → List (Tree × Tree)
  | [] => []
  | (k, t) :: rest => (k.paired, t.paired) :: pairedMembers rest

end

mutual

/-- The whole numbers that are written. -/
def Tree.ints : Tree → List Int
  | int n => [n]
  | list items => itemInts items
  | object members => memberInts members
  | _ => []

def Tree.itemInts : List Tree → List Int
  | [] => []
  | t :: ts => t.ints ++ itemInts ts

def Tree.memberInts : List (Tree × Tree) → List Int
  | [] => []
  | (k, t) :: rest => k.ints ++ t.ints ++ memberInts rest

end

def pairedMember (m : List Nat × Tree) : List Nat × Tree := (paired m.1, m.2.paired)

theorem pairedItems_eq_map (ts : List Tree) : Tree.pairedItems ts = ts.map Tree.paired := by
  induction ts with
  | nil => rfl
  | cons t ts ih => rw [Tree.pairedItems, ih, List.map_cons]

theorem pairedMembers_map_entry (ms : List (List Nat × Tree)) :
    Tree.pairedMembers (ms.map entry) = (ms.map pairedMember).map entry := by
  induction ms with
  | nil => rfl
  | cons m ms ih => simp [entry, Tree.pairedMembers, ih, pairedMember, Tree.paired]

theorem mem_itemInts {n : Int} {ts : List Tree} : n ∈ Tree.itemInts ts ↔ ∃ t ∈ ts, n ∈ t.ints := by
  induction ts with
  | nil => simp [Tree.itemInts]
  | cons t ts ih => simp [Tree.itemInts, ih]

theorem mem_memberInts {n : Int} {ms : List (List Nat × Tree)} :
    n ∈ Tree.memberInts (ms.map entry) ↔ ∃ m ∈ ms, n ∈ m.2.ints := by
  induction ms with
  | nil => simp [Tree.memberInts]
  | cons m ms ih => simp [entry, Tree.memberInts, Tree.ints, ih]

def memberText (m : List Nat × Tree) : Except CallError Text := do
  return stringText m.1 ++ ':' :: (← m.2.text)

theorem itemTexts_eq_mapM (ts : List Tree) : Tree.itemTexts ts = ts.mapM Tree.text := by
  induction ts with
  | nil => rfl
  | cons t ts ih => rw [Tree.itemTexts, ih, List.mapM_cons]

theorem memberTexts_eq_mapM (ms : List (List Nat × Tree)) :
    Tree.memberTexts (ms.map entry) = ms.mapM memberText := by
  induction ms with
  | nil => rfl
  | cons m ms ih =>
      rw [List.map_cons, entry, Tree.memberTexts, ih, List.mapM_cons, memberText]
      cases m.2.text <;> rfl

/-- No text holds half of a pair, so the strings of a value are read back as they are. -/
theorem paired_codes (t : Text) : paired (codes t) = codes t := by
  refine paired_eq_self (List.Pairwise.isChain ?_)
  refine List.pairwise_of_forall_mem_list fun a ha b _ hpair => ?_
  obtain ⟨c, -, rfl⟩ := List.mem_map.mp ha
  have hvalid : c.toNat < 0xd800 ∨ 0xdfff < c.toNat ∧ c.toNat < 0x110000 := c.valid
  omega

mutual

theorem paired_ofValue : (v : Value) → (Tree.ofValue v).paired = Tree.ofValue v
  | .str s => by rw [Tree.ofValue, Tree.paired, paired_codes]
  | .safe s => by rw [Tree.ofValue, Tree.paired, paired_codes]
  | .list items => by rw [Tree.ofValue, Tree.paired, paired_ofItems items]
  | .tuple items => by rw [Tree.ofValue, Tree.paired, paired_ofItems items]
  | .dict entries => by rw [Tree.ofValue, Tree.paired, paired_ofEntries entries]
  | .number n w => by cases n <;> rfl
  | .none | .bool _ | .int _ | .float _ | .bytes _ | .generator .. | .markup _ | .other => rfl

theorem paired_ofItems : (vs : List Value) → Tree.pairedItems (Tree.ofItems vs) = Tree.ofItems vs
  | [] => rfl
  | v :: vs => by rw [Tree.ofItems, Tree.pairedItems, paired_ofValue v, paired_ofItems vs]

theorem paired_ofEntries :
    (es : List (Value × Value)) → Tree.pairedMembers (Tree.ofEntries es) = Tree.ofEntries es
  | [] => rfl
  | (k, v) :: es => by
      rw [Tree.ofEntries, Tree.pairedMembers, paired_ofValue k, paired_ofValue v,
        paired_ofEntries es]

end

end Trees

section Values

variable {white : Char → Bool} (hwhite : ∀ c, white c = true → isWhite c = true)

include hwhite in
theorem skip_cons {c : Char} (hc : isWhite c = false) (t : Text) :
    skip white (c :: t) = c :: t := by
  have hblack : white c ≠ true := fun h => absurd (hwhite c h) (by simp [hc])
  exact List.dropWhile_cons_of_neg hblack

/-- A text as which a value is written, and from which it is read back whatever follows. -/
structure Written (v : Tree) (x : Text) : Prop where
  /-- The text is the JSON text of the value. -/
  text : v.text = .ok x
  printable : Printable x
  /-- The first character neither is white space nor closes a list. -/
  head : ∃ c w, x = c :: w ∧ isWhite c = false ∧ c ≠ ']'
  read : ∀ {white : Char → Bool}, (∀ c, white c = true → isWhite c = true) → ∀ {n : Nat},
    x.length ≤ n → ∀ {rest : Text}, Follows rest →
    value? white n (x ++ rest) = some (v.paired, rest)

theorem value?_scalar {n : Nat} {c : Char} (hquote : c ≠ '"') (hbracket : c ≠ '[')
    (hbrace : c ≠ '{') (t : Text) :
    value? white (n + 1) (c :: t) = (name? (c :: t)).or (number? (c :: t)) := by
  simp [value?, hquote, hbracket, hbrace]

theorem written_name {v : Tree} {name : Text} (hname : (name, v) ∈ names) : Written v name := by
  simp only [names, List.mem_cons, Prod.mk.injEq, List.not_mem_nil, or_false] at hname
  rcases hname with ⟨rfl, rfl⟩ | ⟨rfl, rfl⟩ | ⟨rfl, rfl⟩
  all_goals
    refine ⟨rfl, List.all_iff_forall_prop.mp (by decide), ⟨_, _, rfl, by decide, by decide⟩, ?_⟩
    intro white hwhite n hn rest hrest
    obtain ⟨n, rfl⟩ :=
      Nat.exists_eq_succ_of_ne_zero (Nat.ne_of_gt (Nat.lt_of_lt_of_le (by decide) hn))
    exact value?_scalar (by decide) (by decide) (by decide) _

theorem exists_ofInt_eq_cons (m : Int) :
    ∃ c w, Text.ofInt m = c :: w ∧ (c = '-' ∨ isDecimal c = true) := by
  unfold Text.ofInt
  split_ifs
  · exact ⟨'-', _, rfl, .inl rfl⟩
  · obtain ⟨c, w, hcw⟩ := List.exists_cons_of_ne_nil (ofNat_ne_nil m.natAbs)
    exact ⟨c, w, hcw, .inr (isDecimal_of_mem_ofNat (hcw ▸ List.mem_cons_self ..))⟩

theorem not_mem_of_numeral {c : Char} (h : c = '-' ∨ isDecimal c = true) :
    c ∉ [' ', '\t', '\n', '\r', '"', '[', ']', '{', 'n', 't', 'f'] := by
  have hall : ∀ d ∈ [' ', '\t', '\n', '\r', '"', '[', ']', '{', 'n', 't', 'f'], d ≠ '-' ∧
      isDecimal d = false :=
    List.all_iff_forall_prop.mp (by decide)
  intro hc
  rcases h with h | h
  · exact (hall c hc).1 h
  · exact absurd h (by simp [(hall c hc).2])

theorem text_int (m : Int) :
    (Tree.int m).text =
      if Text.hasNumeral m then .ok (Text.ofInt m) else .error .tooManyDigits := by
  rw [Tree.text, intText, Value.write, Value.checked, Value.isWritable]
  split <;> rfl

theorem written_int {m : Int} (hm : Text.hasNumeral m = true) :
    Written (.int m) (Text.ofInt m) := by
  obtain ⟨c, w, hcw, hc⟩ := exists_ofInt_eq_cons m
  have hother := not_mem_of_numeral hc
  simp only [List.mem_cons, List.not_mem_nil, or_false, not_or] at hother
  refine ⟨by rw [text_int, if_pos hm], printable_ofInt m,
    ⟨c, w, hcw, by simp [isWhite, hother], by simp [hother]⟩, ?_⟩
  intro white hwhite n hn rest hrest
  have hread := number?_ofInt m hrest
  rw [hcw] at hn hread ⊢
  obtain ⟨n, rfl⟩ := Nat.exists_eq_succ_of_ne_zero (Nat.ne_of_gt (Nat.lt_of_lt_of_le (by simp) hn))
  have hname : name? (c :: (w ++ rest)) = none := by
    simp [name?, names, Text.dropLiteral?, eq_comm, hother]
  rw [List.cons_append, value?_scalar (by simp [hother]) (by simp [hother]) (by simp [hother]),
    hname]
  exact hread

theorem written_string {ns : List Nat} (h : ∀ n ∈ ns, n < 0x110000) :
    Written (.string ns) (stringText ns) where
  text := by rw [Tree.text]
  printable := printable_stringText h
  head := ⟨'"', _, rfl, by decide, by decide⟩
  read := by
    intro white hwhite n hn rest hrest
    simp only [stringText, List.length_cons, List.length_append, List.length_nil] at hn
    obtain ⟨n, rfl⟩ := Nat.exists_eq_add_one_of_ne_zero (show n ≠ 0 by omega)
    have hread := string?_flatMap_codeText h (k := n) (by omega) rest
    simp [stringText, value?, hread, Tree.paired]

end Values

section Containers

variable {white : Char → Bool} (hwhite : ∀ c, white c = true → isWhite c = true)

theorem follows_cons {d : Char} (hd : d ∈ [',', ']', '}']) (t : Text) : Follows (d :: t) := by
  have hall : ∀ d ∈ [',', ']', '}'], isDecimal d = false ∧ d ≠ '.' ∧ d ≠ 'e' ∧ d ≠ 'E' :=
    List.all_iff_forall_prop.mp (by decide)
  intro c hc
  obtain rfl : d = c := Option.some.inj hc
  exact hall d hd

/-- The text is read as the part `a` whatever follows. -/
structure ReadAs {α : Type} (part : Text → Option (α × Text)) (a : α) (x : Text) : Prop where
  head : ∃ c w, x = c :: w ∧ isWhite c = false
  read : ∀ {rest : Text}, Follows rest → part (x ++ rest) = some (a, rest)

include hwhite in
theorem Written.skip {v : Tree} {x : Text} (h : Written v x) (t : Text) :
    Json.skip white (x ++ t) = x ++ t := by
  obtain ⟨c, w, rfl, hc, -⟩ := h.head
  exact skip_cons hwhite hc (w ++ t)

include hwhite in
theorem Written.readAs {v : Tree} {x : Text} (h : Written v x) {n : Nat} (hn : x.length ≤ n) :
    ReadAs (value? white n) v.paired x := by
  obtain ⟨c, w, hcw, hc, -⟩ := h.head
  exact ⟨⟨c, w, hcw, hc⟩, h.read hwhite hn⟩

section Parts

variable {α : Type} {part : Text → Option (α × Text)} {close : Char}

include hwhite in
theorem parts?_succ {a : α} {x : Text} (h : ReadAs part a x) {d : Char} (hd : d ∈ [',', ']', '}'])
    (n : Nat) (t : Text) :
    parts? white part close (n + 1) (x ++ d :: t) =
      if d = close then some ([a], t)
      else if d = ',' then (parts? white part close n t).map fun p => (a :: p.1, p.2)
      else none := by
  have hblack : ∀ d ∈ [',', ']', '}'], isWhite d = false := List.all_iff_forall_prop.mp (by decide)
  obtain ⟨c, w, hcw, hc⟩ := h.head
  have hskip : skip white (x ++ d :: t) = x ++ d :: t := hcw ▸ skip_cons hwhite hc _
  rw [parts?, hskip, h.read (follows_cons hd t)]
  simp only [Option.bind_eq_bind, Option.bind_some, skip_cons hwhite (hblack d hd)]
  split_ifs
  · rfl
  · cases parts? white part close n t <;> rfl
  · rfl

include hwhite in
/-- Parts of which each is read whatever follows are all read up to the closing mark. -/
theorem parts?_join (hclose : close ∈ [']', '}']) {β : Type} {f : β → α} {R : β → Text → Prop}
    {m : Nat} (hR : ∀ {b x}, R b x → x.length ≤ m → ReadAs part (f b) x) {l : List β}
    {xs : List Text} (h : List.Forall₂ R l xs) (hne : xs ≠ [])
    (hm : (Text.join [','] xs).length ≤ m) {n : Nat} (hn : (Text.join [','] xs).length < n)
    (t : Text) :
    parts? white part close n (Text.join [','] xs ++ close :: t) = some (l.map f, t) := by
  induction h generalizing n with
  | nil => exact absurd rfl hne
  | @cons b x l xs hbx hl ih =>
      obtain ⟨n, rfl⟩ := Nat.exists_eq_add_one_of_ne_zero (Nat.ne_zero_of_lt hn)
      by_cases hlast : xs = []
      · subst hlast
        cases hl
        rw [Text.join, List.intercalate_singleton] at hm ⊢
        rw [parts?_succ hwhite (hR hbx hm) (List.mem_cons_of_mem _ hclose), if_pos rfl]
        rfl
      · have hcomma : ',' ≠ close := by
          rintro rfl
          exact absurd hclose (by decide)
        rw [Text.join_cons hlast] at hm hn ⊢
        simp only [List.length_append, List.length_singleton] at hm hn
        rw [List.append_assoc, List.append_assoc, List.singleton_append,
          parts?_succ hwhite (hR hbx (by omega)) (List.mem_cons_self ..), if_neg hcomma, if_pos rfl,
          ih hlast (by omega) (by omega)]
        rfl

end Parts

theorem exists_join_eq_cons {P : Char → Prop} {x : Text} (h : ∃ c w, x = c :: w ∧ P c)
    (xs : List Text) :
    ∃ c w, Text.join [','] (x :: xs) = c :: w ∧ P c := by
  obtain ⟨c, w, rfl, hc⟩ := h
  cases xs with
  | nil => exact ⟨c, w, by simp [Text.join], hc⟩
  | cons y xs => exact ⟨c, _, by rw [Text.join_cons (List.cons_ne_nil y xs)]; rfl, hc⟩

theorem printable_bracketed {α : Type} {R : α → Text → Prop} (hR : ∀ {a x}, R a x → Printable x)
    {l : List α} {xs : List Text} (h : List.Forall₂ R l xs) {left right : Char}
    (hleft : ' ' ≤ left ∧ left ≤ '~') (hright : ' ' ≤ right ∧ right ≤ '~') :
    Printable (left :: Text.join [','] xs ++ [right]) := by
  have hone {c : Char} (hc : ' ' ≤ c ∧ c ≤ '~') : Printable [c] := .cons hc (List.forall_mem_nil _)
  have hxs : ∀ x ∈ xs, Printable x := by
    intro x hx
    obtain ⟨a, -, ha⟩ := forall₂_mem_right h hx
    exact hR ha
  exact .cons hleft
    ((Text.join_induction (List.forall_mem_nil _) .append (hone (by decide)) hxs).append
      (hone hright))

theorem written_list {vs : List Tree} (h : ∀ v ∈ vs, ∃ x, Written v x) :
    ∃ x, Written (.list vs) x := by
  obtain ⟨xs, hxs⟩ := exists_forall₂ h
  have htexts : Tree.itemTexts vs = .ok xs := by
    rw [itemTexts_eq_mapM]
    exact mapM_eq_ok_iff.mpr (hxs.imp fun _ _ => Written.text)
  refine ⟨'[' :: Text.join [','] xs ++ [']'], by rw [Tree.text, htexts]; rfl,
    printable_bracketed Written.printable hxs (by decide) (by decide),
    ⟨'[', _, rfl, by decide, by decide⟩, ?_⟩
  intro white hwhite n hn rest hrest
  simp only [List.length_cons, List.length_append, List.length_nil] at hn
  obtain ⟨n, rfl⟩ := Nat.exists_eq_add_one_of_ne_zero (show n ≠ 0 by omega)
  rw [Tree.paired, pairedItems_eq_map]
  cases hxs with
  | nil => simp [value?, Text.join, skip_cons hwhite (c := ']') (by decide)]
  | @cons v x vs xs hv hvs =>
      obtain ⟨c, w, hcw, hc, hne⟩ := exists_join_eq_cons hv.head xs
      have hread : parts? white (value? white n) ']' n (Text.join [','] (x :: xs) ++ ']' :: rest) =
          some ((v :: vs).map Tree.paired, rest) :=
        parts?_join hwhite (.head _) (fun h => h.readAs hwhite) (.cons hv hvs)
          (List.cons_ne_nil x xs) (by omega) (by omega) rest
      rw [hcw] at hread
      simp only [List.cons_append, List.append_assoc] at hread ⊢
      simp [value?, hcw, skip_cons hwhite hc, hne, hread]

/-- A text as which a member of an object is written. -/
def MemberWritten (m : List Nat × Tree) (x : Text) : Prop :=
  (∀ n ∈ m.1, n < 0x110000) ∧ ∃ y, Written m.2 y ∧ x = stringText m.1 ++ ':' :: y

theorem MemberWritten.text {m : List Nat × Tree} {x : Text} (h : MemberWritten m x) :
    memberText m = .ok x := by
  obtain ⟨-, y, hy, rfl⟩ := h
  rw [memberText, hy.text]
  rfl

theorem MemberWritten.exists_eq_cons {m : List Nat × Tree} {x : Text} (h : MemberWritten m x) :
    ∃ w, x = '"' :: w := by
  obtain ⟨-, y, -, rfl⟩ := h
  exact ⟨_, rfl⟩

theorem MemberWritten.printable {m : List Nat × Tree} {x : Text} (h : MemberWritten m x) :
    Printable x := by
  obtain ⟨hm, y, hy, rfl⟩ := h
  exact (printable_stringText hm).append (.cons (by decide) hy.printable)

include hwhite in
theorem MemberWritten.readAs {m : List Nat × Tree} {x : Text} (h : MemberWritten m x) {n : Nat}
    (hn : x.length ≤ n) : ReadAs (member? white (value? white n) n) (pairedMember m) x := by
  obtain ⟨w, hw⟩ := h.exists_eq_cons
  refine ⟨⟨'"', w, hw, by decide⟩, fun {t} ht => ?_⟩
  obtain ⟨hm, y, hy, rfl⟩ := h
  simp only [stringText, List.length_cons, List.length_append, List.length_nil] at hn
  have hkey := string?_flatMap_codeText hm (k := n) (by omega) (':' :: (y ++ t))
  have hvalue := hy.read hwhite (n := n) (by omega) ht
  simp [stringText, member?, Text.dropLiteral?, hkey, skip_cons hwhite (c := ':') (by decide),
    hy.skip hwhite, hvalue, pairedMember]

theorem put_of_not_mem {k : List Nat} {v : Tree} {ms : List (List Nat × Tree)}
    (h : k ∉ ms.map Prod.fst) : put k v ms = ms ++ [(k, v)] := by
  induction ms with
  | nil => rfl
  | cons m ms ih =>
      obtain ⟨hm, hms⟩ : k ≠ m.1 ∧ k ∉ ms.map Prod.fst := by simpa using h
      rw [put, if_neg hm.symm, ih hms, List.cons_append]

theorem foldl_put (acc : List (List Nat × Tree)) {ms : List (List Nat × Tree)}
    (h : ((acc ++ ms).map Prod.fst).Nodup) :
    ms.foldl (fun acc m => put m.1 m.2 acc) acc = acc ++ ms := by
  induction ms generalizing acc with
  | nil => simp
  | cons m ms ih =>
      have hm : m.1 ∉ acc.map Prod.fst := by
        rw [List.map_append, List.map_cons, List.nodup_middle, List.nodup_cons] at h
        exact fun hmem => h.1 (List.mem_append_left _ hmem)
      rw [List.foldl_cons, put_of_not_mem hm, ih (acc ++ [m]) (by simpa using h), List.append_assoc,
        List.singleton_append]

theorem written_object {ms : List (List Nat × Tree)} (hkeys : ∀ m ∈ ms, ∀ n ∈ m.1, n < 0x110000)
    (distinct : (ms.map fun m => paired m.1).Nodup) (h : ∀ m ∈ ms, ∃ x, Written m.2 x) :
    ∃ x, Written (.object (ms.map entry)) x := by
  obtain ⟨xs, hxs⟩ : ∃ xs, List.Forall₂ MemberWritten ms xs := by
    refine exists_forall₂ fun m hm => ?_
    obtain ⟨y, hy⟩ := h m hm
    exact ⟨_, hkeys m hm, y, hy, rfl⟩
  have htexts : Tree.memberTexts (ms.map entry) = .ok xs := by
    rw [memberTexts_eq_mapM]
    exact mapM_eq_ok_iff.mpr (hxs.imp fun _ _ => MemberWritten.text)
  refine ⟨'{' :: Text.join [','] xs ++ ['}'], by rw [Tree.text, htexts]; rfl,
    printable_bracketed MemberWritten.printable hxs (by decide) (by decide),
    ⟨'{', _, rfl, by decide, by decide⟩, ?_⟩
  intro white hwhite n hn rest hrest
  simp only [List.length_cons, List.length_append, List.length_nil] at hn
  obtain ⟨n, rfl⟩ := Nat.exists_eq_add_one_of_ne_zero (show n ≠ 0 by omega)
  have hobject : objectOf (ms.map pairedMember) = .object ((ms.map pairedMember).map entry) := by
    have hnodup : ((ms.map pairedMember).map Prod.fst).Nodup := by rwa [List.map_map]
    rw [objectOf, foldl_put [] hnodup, List.nil_append]
  rw [Tree.paired, pairedMembers_map_entry, ← hobject]
  cases hxs with
  | nil => simp [value?, Text.join, skip_cons hwhite (c := '}') (by decide), objectOf]
  | @cons m x ms xs hx hms =>
      obtain ⟨w, hw⟩ := hx.exists_eq_cons
      obtain ⟨c, w, hcw, rfl⟩ := exists_join_eq_cons (P := (· = '"')) ⟨_, w, hw, rfl⟩ xs
      have hread : parts? white (member? white (value? white n) n) '}' n
          (Text.join [','] (x :: xs) ++ '}' :: rest) = some ((m :: ms).map pairedMember, rest) :=
        parts?_join hwhite (.tail _ (.head _)) (fun h => h.readAs hwhite) (.cons hx hms)
          (List.cons_ne_nil x xs) (by omega) (by omega) rest
      rw [hcw] at hread
      simp only [List.cons_append, List.append_assoc] at hread ⊢
      simp [value?, hcw, skip_cons hwhite (c := '"') (by decide), hread]

end Containers

/-- Nothing, truth values, whole numbers and strings, lists of such values, and objects of such
values under names that are different, also once their pairs are put together. -/
inductive Tree.IsJson : Tree → Prop
  | null : IsJson .null
  | bool (b : Bool) : IsJson (.bool b)
  | int (n : Int) : IsJson (.int n)
  | string {ns : List Nat} : (∀ n ∈ ns, n < 0x110000) → IsJson (.string ns)
  | list {items : List Tree} : (∀ t ∈ items, IsJson t) → IsJson (.list items)
  | object {members : List (List Nat × Tree)} : (∀ m ∈ members, ∀ n ∈ m.1, n < 0x110000) →
      (members.map fun m => Json.paired m.1).Nodup → (∀ m ∈ members, IsJson m.2) →
      IsJson (.object (members.map entry))

theorem Tree.IsJson.exists_written {t : Tree} (h : t.IsJson)
    (hints : ∀ n ∈ t.ints, Text.hasNumeral n = true) : ∃ x, Written t x := by
  induction h with
  | null => exact ⟨_, written_name (.head _)⟩
  | bool b =>
      cases b with
      | true => exact ⟨_, written_name (.tail _ (.head _))⟩
      | false => exact ⟨_, written_name (.tail _ (.tail _ (.head _)))⟩
  | int n => exact ⟨_, written_int (hints n (.head _))⟩
  | string hns => exact ⟨_, written_string hns⟩
  | list _ ih =>
      exact written_list fun t ht => ih t ht fun n hn => hints n (mem_itemInts.mpr ⟨t, ht, hn⟩)
  | object hkeys distinct _ ih =>
      exact written_object hkeys distinct fun m hm =>
        ih m hm fun n hn => hints n (mem_memberInts.mpr ⟨m, hm, hn⟩)

theorem Tree.IsJson.text_eq_error {t : Tree} (h : t.IsJson)
    (hints : ∃ n ∈ t.ints, Text.hasNumeral n = false) : t.text = .error .tooManyDigits := by
  -- Whatever stands beside the number that cannot be written is written or has such a number
  -- itself.
  have hcases {t : Tree} (ht : t.IsJson) (ih : (∃ n ∈ t.ints, Text.hasNumeral n = false) →
      t.text = .error .tooManyDigits) : (∃ x, t.text = .ok x) ∨ t.text = .error .tooManyDigits := by
    by_cases hall : ∃ n ∈ t.ints, Text.hasNumeral n = false
    · exact .inr (ih hall)
    · obtain ⟨x, hx⟩ := ht.exists_written fun n hn => by simpa using fun hno => hall ⟨n, hn, hno⟩
      exact .inl ⟨x, hx.text⟩
  induction h with
  | null | bool | string => simp [Tree.ints] at hints
  | int n =>
      have hno : Text.hasNumeral n = false := by simpa [Tree.ints] using hints
      rw [text_int, hno]
      rfl
  | @list items hitems ih =>
      obtain ⟨n, hn, hno⟩ := hints
      obtain ⟨t, ht, hn⟩ := mem_itemInts.mp hn
      have herror : Tree.itemTexts items = .error .tooManyDigits := by
        rw [itemTexts_eq_mapM]
        exact mapM_eq_error (fun t ht => hcases (hitems t ht) (ih t ht))
          ⟨t, ht, ih t ht ⟨n, hn, hno⟩⟩
      rw [Tree.text, herror]
      rfl
  | @object members _ _ hmembers ih =>
      obtain ⟨n, hn, hno⟩ := hints
      obtain ⟨m, hm, hn⟩ := mem_memberInts.mp hn
      have herror : Tree.memberTexts (members.map entry) = .error .tooManyDigits := by
        rw [memberTexts_eq_mapM]
        refine mapM_eq_error (fun m hm => ?_) ⟨m, hm, ?_⟩
        · rcases hcases (hmembers m hm) (ih m hm) with ⟨x, hx⟩ | hx
          · exact .inl ⟨_, by rw [memberText, hx]; rfl⟩
          · exact .inr (by rw [memberText, hx]; rfl)
        · rw [memberText, ih m hm ⟨n, hn, hno⟩]
          rfl
      rw [Tree.text, herror]
      rfl

theorem Written.read?_eq {v : Tree} {x : Text} (h : Written v x) {white : Char → Bool}
    (hwhite : ∀ c, white c = true → isWhite c = true) : read? white x = some v.paired := by
  have hskip := h.skip hwhite []
  have hread := h.read hwhite (Nat.le_refl _) (show Follows [] by simp [Follows])
  rw [List.append_nil] at hskip hread
  rw [read?, hskip, hread]
  rfl

end Json

theorem printable_escape {t : Text} (h : Json.Printable t) : Json.Printable (escape t) := by
  have hspecial : ∀ c ∈ special, (escapeChar c).all fun d => ' ' ≤ d ∧ d ≤ '~' :=
    List.all_iff_forall_prop.mp (by decide)
  intro d hd
  obtain ⟨c, hc, hd⟩ := List.mem_flatMap.mp hd
  by_cases hs : c ∈ special
  · simpa using List.all_eq_true.mp (hspecial c hs) d hd
  · rw [escapeChar_of_not_special hs, List.mem_singleton] at hd
    exact hd ▸ h c hc

/-- Without the member that it announces, a text is no JSON text. -/
example : (Json.read? Json.isWhite "\x7b\"a\" : [1, -0.5e2], \x7d".toList).isNone = true :=
  by decide

end EmbeddedMarkup.Safe
