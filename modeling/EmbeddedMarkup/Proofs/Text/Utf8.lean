import EmbeddedMarkup.Text.Utf8
import Mathlib.Data.List.Basic

/-!
# Texts in bytes

The bytes of a text are read as that text (`decode?_encode`), and a character that lacks some of its
bytes is not read at all (`Written.decode?_take`). A byte below 0x80 is never part of a longer
character (`eq_of_mem_encode`), so line ends can be looked for in bytes.

All of this is said first of one character, from the four forms that its bytes have (`Written`).
-/

namespace EmbeddedMarkup.Text

namespace Utf8

@[simp]
theorem encode_nil : encode [] = [] := rfl

@[simp]
theorem encode_cons (c : Char) (t : Text) : encode (c :: t) = encodeChar c ++ encode t := rfl

@[simp]
theorem encode_append (s t : Text) : encode (s ++ t) = encode s ++ encode t := by
  simp [encode]

/-- The forms that the bytes of a character have, with the parts of its code point. -/
inductive Written (c : Char) : List UInt8 → Prop
  | one (h : c.toNat < 0x80) : Written c [c.toNat.toUInt8]
  | two {a x : Nat} (ha : a < 0x20) (hx : x < 0x40) (hc : c.toNat = a * 0x40 + x)
      (hlow : 0x80 ≤ c.toNat) : Written c [(0xc0 + a).toUInt8, (0x80 + x).toUInt8]
  | three {a x y : Nat} (ha : a < 0x10) (hx : x < 0x40) (hy : y < 0x40)
      (hc : c.toNat = a * 0x1000 + x * 0x40 + y) (hlow : 0x800 ≤ c.toNat) :
      Written c [(0xe0 + a).toUInt8, (0x80 + x).toUInt8, (0x80 + y).toUInt8]
  | four {a x y z : Nat} (ha : a < 0x8) (hx : x < 0x40) (hy : y < 0x40) (hz : z < 0x40)
      (hc : c.toNat = a * 0x40000 + x * 0x1000 + y * 0x40 + z) (hlow : 0x10000 ≤ c.toNat) :
      Written c [(0xf0 + a).toUInt8, (0x80 + x).toUInt8, (0x80 + y).toUInt8, (0x80 + z).toUInt8]

theorem written_encodeChar (c : Char) : Written c (encodeChar c) := by
  have hlt : c.toNat < 0x110000 := by
    have hvalid : c.toNat.isValidChar := c.valid
    unfold Nat.isValidChar at hvalid
    omega
  unfold encodeChar
  dsimp only
  split_ifs with h80 h800 h10000
  · exact .one h80
  · exact .two (by omega) (by omega) (by omega) (by omega)
  · exact .three (by omega) (by omega) (by omega) (by omega) (by omega)
  · exact .four (by omega) (by omega) (by omega) (by omega) (by omega) (by omega)

theorem toNat_toUInt8 {n : Nat} (h : n < 0x100) : n.toUInt8.toNat = n := by
  simpa [Nat.toUInt8] using h

theorem charFrom?_toNat {low : Nat} {c : Char} (h : low ≤ c.toNat) :
    charFrom? low c.toNat = some c := by
  have hvalid : c.toNat.isValidChar := c.valid
  unfold charFrom?
  rw [dif_pos hvalid, if_pos h]
  exact congrArg some (Char.ext rfl)

theorem tail?_toUInt8 {n : Nat} (h : n < 0x40) : tail? (0x80 + n).toUInt8 = some n := by
  have hnat : (0x80 + n).toUInt8.toNat = 0x80 + n := toNat_toUInt8 (by omega)
  rw [tail?, if_pos, hnat, Nat.add_sub_cancel_left]
  rw [UInt8.le_iff_toNat_le, UInt8.lt_iff_toNat_lt, hnat]
  exact ⟨Nat.le_add_right _ _, Nat.add_lt_add_left h 0x80⟩

theorem toUInt8_lt {n : Nat} {b : UInt8} (h : n < b.toNat) : n.toUInt8 < b := by
  rw [UInt8.lt_iff_toNat_lt, toNat_toUInt8 (Nat.lt_trans h b.toNat_lt)]
  exact h

theorem not_toUInt8_lt {k n : Nat} {b : UInt8} (hn : k + n < 0x100) (h : b.toNat ≤ k) :
    ¬(k + n).toUInt8 < b := by
  rw [UInt8.lt_iff_toNat_lt, toNat_toUInt8 hn]
  exact Nat.not_lt.mpr (Nat.le_add_right_of_le h)

section Forms

variable {a b c d : UInt8} {x y z : Nat} {e : Char} (t : List UInt8)

theorem decode?_one (h : a < 0x80) (he : charFrom? 0 a.toNat = some e) :
    decode? (a :: t) = (decode? t).map (e :: ·) := by
  rw [decode?.eq_def]
  simp only [h, if_true]
  rw [he]
  cases decode? t <;> rfl

theorem decode?_two (h80 : ¬a < 0x80) (he0 : a < 0xe0) (hx : tail? b = some x)
    (he : charFrom? 0x80 ((a.toNat - 0xc0) * 0x40 + x) = some e) :
    decode? (a :: b :: t) = (decode? t).map (e :: ·) := by
  rw [decode?.eq_def]
  simp only [h80, he0, if_true, if_false, hx]
  rw [Option.bind_eq_bind, Option.bind_some, he]
  cases decode? t <;> rfl

theorem decode?_three (h80 : ¬a < 0x80) (he0 : ¬a < 0xe0) (hf0 : a < 0xf0) (hx : tail? b = some x)
    (hy : tail? c = some y)
    (he : charFrom? 0x800 ((a.toNat - 0xe0) * 0x1000 + x * 0x40 + y) = some e) :
    decode? (a :: b :: c :: t) = (decode? t).map (e :: ·) := by
  rw [decode?.eq_def]
  simp only [h80, he0, hf0, if_true, if_false, hx, hy]
  rw [Option.bind_eq_bind, Option.bind_some, Option.bind_eq_bind, Option.bind_some, he]
  cases decode? t <;> rfl

theorem decode?_four (h80 : ¬a < 0x80) (he0 : ¬a < 0xe0) (hf0 : ¬a < 0xf0) (hx : tail? b = some x)
    (hy : tail? c = some y) (hz : tail? d = some z)
    (he : charFrom? 0x10000 ((a.toNat - 0xf0) * 0x40000 + x * 0x1000 + y * 0x40 + z) = some e) :
    decode? (a :: b :: c :: d :: t) = (decode? t).map (e :: ·) := by
  rw [decode?.eq_def]
  simp only [h80, he0, hf0, if_false, hx, hy, hz]
  rw [Option.bind_eq_bind, Option.bind_some, Option.bind_eq_bind, Option.bind_some,
    Option.bind_eq_bind, Option.bind_some, he]
  cases decode? t <;> rfl

end Forms

namespace Written

variable {c : Char} {cs : List UInt8}

theorem decode?_append (h : Written c cs) (bs : List UInt8) :
    decode? (cs ++ bs) = (decode? bs).map (c :: ·) := by
  cases h with
  | one h =>
      refine decode?_one bs (toUInt8_lt h) ?_
      rw [toNat_toUInt8 (by omega), charFrom?_toNat (Nat.zero_le _)]
  | @two a x ha hx hc hlow =>
      have hn : 0xc0 + a < 0x100 := by omega
      refine decode?_two bs (not_toUInt8_lt hn (by decide))
        (toUInt8_lt (Nat.add_lt_add_left ha 0xc0))
        (tail?_toUInt8 hx) ?_
      rw [toNat_toUInt8 hn, Nat.add_sub_cancel_left, ← hc, charFrom?_toNat hlow]
  | @three a x y ha hx hy hc hlow =>
      have hn : 0xe0 + a < 0x100 := by omega
      refine decode?_three bs (not_toUInt8_lt hn (by decide)) (not_toUInt8_lt hn (by decide))
        (toUInt8_lt (Nat.add_lt_add_left ha 0xe0)) (tail?_toUInt8 hx) (tail?_toUInt8 hy) ?_
      rw [toNat_toUInt8 hn, Nat.add_sub_cancel_left, ← hc, charFrom?_toNat hlow]
  | @four a x y z ha hx hy hz hc hlow =>
      have hn : 0xf0 + a < 0x100 := by omega
      refine decode?_four bs (not_toUInt8_lt hn (by decide)) (not_toUInt8_lt hn (by decide))
        (not_toUInt8_lt hn (by decide)) (tail?_toUInt8 hx) (tail?_toUInt8 hy) (tail?_toUInt8 hz) ?_
      rw [toNat_toUInt8 hn, Nat.add_sub_cancel_left, ← hc, charFrom?_toNat hlow]

theorem decode?_take (h : Written c cs) {n : Nat} (hpos : 0 < n) (hlt : n < cs.length) :
    decode? (cs.take n) = none := by
  cases h with
  | one h =>
      rw [List.length_singleton] at hlt
      omega
  | @two a x ha =>
      have h80 : ¬(0xc0 + a).toUInt8 < 0x80 := not_toUInt8_lt (by omega) (by decide)
      have he0 : (0xc0 + a).toUInt8 < 0xe0 := toUInt8_lt (Nat.add_lt_add_left ha 0xc0)
      obtain rfl : n = 1 := by
        simp only [List.length_cons, List.length_nil] at hlt
        omega
      simp only [List.take_succ_cons, List.take_zero, decode?, h80, he0, if_true, if_false]
  | @three a x y ha =>
      have hn : 0xe0 + a < 0x100 := by omega
      have h80 : ¬(0xe0 + a).toUInt8 < 0x80 := not_toUInt8_lt hn (by decide)
      have he0 : ¬(0xe0 + a).toUInt8 < 0xe0 := not_toUInt8_lt hn (by decide)
      have hf0 : (0xe0 + a).toUInt8 < 0xf0 := toUInt8_lt (Nat.add_lt_add_left ha 0xe0)
      obtain rfl | rfl : n = 1 ∨ n = 2 := by
        simp only [List.length_cons, List.length_nil] at hlt
        omega
      all_goals simp only [List.take_succ_cons, List.take_zero, decode?, h80, he0, hf0, if_true,
        if_false]
  | @four a x y z ha =>
      have hn : 0xf0 + a < 0x100 := by omega
      have h80 : ¬(0xf0 + a).toUInt8 < 0x80 := not_toUInt8_lt hn (by decide)
      have he0 : ¬(0xf0 + a).toUInt8 < 0xe0 := not_toUInt8_lt hn (by decide)
      have hf0 : ¬(0xf0 + a).toUInt8 < 0xf0 := not_toUInt8_lt hn (by decide)
      obtain rfl | rfl | rfl : n = 1 ∨ n = 2 ∨ n = 3 := by
        simp only [List.length_cons, List.length_nil] at hlt
        omega
      all_goals simp only [List.take_succ_cons, List.take_zero, decode?, h80, he0, hf0, if_false]

theorem length_eq (h : Written c cs) : cs.length = c.utf8Size := by
  have hle (n : UInt32) : c.val ≤ n ↔ c.toNat ≤ n.toNat := UInt32.le_iff_toNat_le
  unfold Char.utf8Size
  simp only [hle, UInt32.toNat_ofNatLT]
  cases h with
  | one h => rw [if_pos (by omega)]; rfl
  | two ha hx hc hlow => rw [if_neg (by omega), if_pos (by omega)]; rfl
  | three ha hx hy hc hlow => rw [if_neg (by omega), if_neg (by omega), if_pos (by omega)]; rfl
  | four ha hx hy hz hc hlow => rw [if_neg (by omega), if_neg (by omega), if_neg (by omega)]; rfl

/-- A byte below 0x80 is a character by itself. -/
theorem eq_of_mem (h : Written c cs) {b : UInt8} (hb : b ∈ cs) (hlt : b < 0x80) :
    c.toNat < 0x80 ∧ b = c.toNat.toUInt8 := by
  have hnot {k n : Nat} (hn : k + n < 0x100) (hk : 0x80 ≤ k) (e : b = (k + n).toUInt8) : False :=
    not_toUInt8_lt (b := 0x80) hn hk (e ▸ hlt)
  cases h with
  | one h => exact ⟨h, List.mem_singleton.mp hb⟩
  | two ha hx =>
      simp only [List.mem_cons, List.not_mem_nil, or_false] at hb
      rcases hb with e | e <;> exact (hnot (by omega) (by omega) e).elim
  | three ha hx hy =>
      simp only [List.mem_cons, List.not_mem_nil, or_false] at hb
      rcases hb with e | e | e <;> exact (hnot (by omega) (by omega) e).elim
  | four ha hx hy hz =>
      simp only [List.mem_cons, List.not_mem_nil, or_false] at hb
      rcases hb with e | e | e | e <;> exact (hnot (by omega) (by omega) e).elim

end Written

theorem length_encodeChar (c : Char) : (encodeChar c).length = c.utf8Size :=
  (written_encodeChar c).length_eq

theorem decode?_encode_append (t : Text) (bs : List UInt8) :
    decode? (encode t ++ bs) = (decode? bs).map (t ++ ·) := by
  induction t with
  | nil => simp
  | cons c t ih =>
      rw [encode_cons, List.append_assoc, (written_encodeChar c).decode?_append, ih, Option.map_map]
      rfl

@[simp]
theorem decode?_encode (t : Text) : decode? (encode t) = some t := by
  simpa [decode?] using decode?_encode_append t []

@[simp]
theorem encode_eq_nil_iff {t : Text} : encode t = [] ↔ t = [] := by
  constructor
  · intro h
    have ht := decode?_encode t
    rw [h] at ht
    exact (Option.some.inj ht).symm
  · rintro rfl
    rfl

theorem eq_of_mem_encode {t : Text} {b : UInt8} (hb : b ∈ encode t) (hlt : b < 0x80) :
    ∃ c ∈ t, b = c.toNat.toUInt8 ∧ c.toNat < 0x80 := by
  obtain ⟨c, hc, hb⟩ := List.mem_flatMap.mp hb
  obtain ⟨hlow, heq⟩ := (written_encodeChar c).eq_of_mem hb hlt
  exact ⟨c, hc, heq, hlow⟩

theorem not_mem_encode {c : Char} {t : Text} (h : c ∉ t) (hc : c.toNat < 0x80) :
    c.toNat.toUInt8 ∉ encode t := by
  intro hmem
  obtain ⟨d, hd, heq, hlow⟩ := eq_of_mem_encode hmem (toUInt8_lt hc)
  have hnat : c.toNat = d.toNat := by
    rw [← toNat_toUInt8 (n := c.toNat) (by omega), heq, toNat_toUInt8 (by omega)]
  exact h (Char.toNat_inj.mp hnat ▸ hd)

/-- The mark is a character too, so the bytes of a text that does not start with it do not start
with the mark. -/
theorem mark_isPrefixOf_encode {t : Text} (h : t.head? ≠ some '\ufeff') :
    mark.isPrefixOf (encode t) = false := by
  rw [Bool.eq_false_iff, ne_eq, List.isPrefixOf_iff_prefix]
  rintro ⟨bs, hbs⟩
  have hmark : mark = encode ['\ufeff'] := by decide
  have hdecode := decode?_encode_append ['\ufeff'] bs
  rw [← hmark, hbs, decode?_encode] at hdecode
  obtain ⟨u, -, hu⟩ := Option.map_eq_some_iff.mp hdecode.symm
  exact h (by rw [← hu]; rfl)

end Utf8

end EmbeddedMarkup.Text
