/-
Texts in ascending order. Texts are compared by code points, and their UTF-8 bytes are in
the same order (`bytes_lt`): of two characters the lower has the lower encoding, and none
begins with another. Sorting keeps the texts and puts them in this order.
-/
import Mathlib.Data.List.Basic
import Mathlib.Data.String.Basic
import LiveScreen.Text.Sorted

namespace LiveScreen.Text

/-! ## Bytes -/

/-- The bytes of a text in UTF-8. -/
def bytes (s : String) : List UInt8 := s.toUTF8.data.toList

theorem bytes_eq (s : String) : bytes s = s.toList.flatMap String.utf8EncodeChar := by
  rw [bytes, String.toUTF8_eq_toByteArray, ← String.utf8Encode_toList, List.utf8Encode, List.data_toByteArray]

theorem cons_byte_lt {m n : ℕ} (hm : m < 256) (hn : n < 256) {s t : List UInt8} :
    UInt8.ofNat m :: s < UInt8.ofNat n :: t ↔ m < n ∨ m = n ∧ s < t := by
  rw [List.cons_lt_cons_iff, UInt8.lt_iff_toNat_lt, ← UInt8.toNat_inj, UInt8.toNat_ofNat_of_lt' hm,
    UInt8.toNat_ofNat_of_lt' hn]

/-- Whatever follows them, the encodings of two characters are in the order of the characters. -/
theorem utf8EncodeChar_lt {c d : Char} (h : c < d) (s t : List UInt8) :
    String.utf8EncodeChar c ++ s < String.utf8EncodeChar d ++ t := by
  have hlt : c.val.toNat < d.val.toNat := h
  have hd : d.val.toNat < 0x110000 := by
    have hvalid := d.valid
    simp only [UInt32.isValidChar, Nat.isValidChar] at hvalid
    omega
  simp only [String.utf8EncodeChar]
  generalize c.val.toNat = m at hlt
  generalize d.val.toNat = n at hlt hd
  have hdigits : ∀ k, k / 4096 = k / 64 / 64 ∧ k / 262144 = k / 64 / 64 / 64 := by omega
  -- the first bytes differ where the lengths do, and else the bytes are the digits to the base 64
  split_ifs
  all_goals
    simp (disch := omega) only [List.cons_append, List.nil_append, cons_byte_lt, hdigits]
    omega

theorem flatMap_utf8EncodeChar_lt : ∀ {s t : List Char}, s < t →
    s.flatMap String.utf8EncodeChar < t.flatMap String.utf8EncodeChar
  | _, [], h => absurd h (List.not_lt_nil _)
  | [], d :: t, _ => by
    have hne : (d :: t).flatMap String.utf8EncodeChar ≠ [] := by simp
    obtain ⟨b, bs, heq⟩ := List.exists_cons_of_ne_nil hne
    rw [heq, List.flatMap_nil]
    exact List.nil_lt_cons b bs
  | c :: s, d :: t, h => by
    rw [List.flatMap_cons, List.flatMap_cons]
    obtain hlt | ⟨rfl, hlt⟩ := List.cons_lt_cons_iff.1 h
    · exact utf8EncodeChar_lt hlt _ _
    · exact List.append_left_lt (flatMap_utf8EncodeChar_lt hlt)

/-- The order of texts is that of their bytes. -/
theorem bytes_lt {a b : String} (h : a < b) : bytes a < bytes b := by
  rw [bytes_eq, bytes_eq]
  exact flatMap_utf8EncodeChar_lt (String.lt_iff.1 h)

/-! ## Sorting -/

theorem insertSorted_perm (k : String) : ∀ ks : List String, (insertSorted k ks).Perm (k :: ks)
  | [] => .refl _
  | k' :: rest => by
    rw [insertSorted]
    split
    · exact .refl _
    · exact ((insertSorted_perm k rest).cons k').trans (.swap k k' rest)

theorem sorted_perm : ∀ ks : List String, (sorted ks).Perm ks
  | [] => .refl _
  | k :: rest => (insertSorted_perm k (sorted rest)).trans ((sorted_perm rest).cons k)

theorem pairwise_insertSorted {k : String} {ks : List String} (hk : k ∉ ks) (h : ks.Pairwise (· < ·)) :
    (insertSorted k ks).Pairwise (· < ·) := by
  induction ks with
  | nil => exact List.pairwise_singleton ..
  | cons k' rest ih =>
    obtain ⟨hbelow, hrest⟩ := List.pairwise_cons.1 h
    rw [List.mem_cons, not_or] at hk
    rw [insertSorted]
    split
    · next hlt =>
      refine List.pairwise_cons.2 ⟨fun x hx => ?_, h⟩
      obtain rfl | hx := List.mem_cons.1 hx
      · exact hlt
      · exact hlt.trans (hbelow x hx)
    · next hnot =>
      refine List.pairwise_cons.2 ⟨fun x hx => ?_, ih hk.2 hrest⟩
      obtain rfl | hx := List.mem_cons.1 ((insertSorted_perm k rest).mem_iff.1 hx)
      · exact lt_of_le_of_ne (not_lt.1 hnot) (Ne.symm hk.1)
      · exact hbelow x hx

/-- Texts none of which is there twice are strictly ascending when they are sorted. -/
theorem pairwise_sorted {ks : List String} (h : ks.Nodup) : (sorted ks).Pairwise (· < ·) := by
  induction ks with
  | nil => exact .nil
  | cons k rest ih =>
    obtain ⟨hk, hrest⟩ := List.nodup_cons.1 h
    exact pairwise_insertSorted (mt (sorted_perm rest).mem_iff.1 hk) (ih hrest)

end LiveScreen.Text
