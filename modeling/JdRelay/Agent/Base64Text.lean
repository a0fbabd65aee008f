import JdRelay.Crypto.Base64

namespace Agent.Base64Text
open Text Base64 Crypto

-- static_cast<int>(len) of a size_t.
def toInt (n : Nat) : Int := if n % 4294967296 < 2147483648 then n % 4294967296 else (n % 4294967296 : Int) - 4294967296

-- BIO_f_base64 over a memory BIO: what BIO_flush has written behind one BIO_write of the bytes.
def bioText (written : Bytes) : Str := (lines 64 (encode written)).flatMap fun line => line ++ [newline]

-- BIO_write takes no negative length.
def base64Encode (data : Bytes) : Str := bioText (data.take (toInt data.length).toNat)

inductive Respaced (s : Str) : Str → Prop where
  | refl : Respaced s s
  | insert {a b : Str} {c : CodePoint} (h : Respaced s (a ++ b)) (hc : kept c = false) : Respaced s (a ++ c :: b)
  | remove {a b : Str} {c : CodePoint} (h : Respaced s (a ++ c :: b)) (hc : kept c = false) : Respaced s (a ++ b)

theorem toInt_lt (n : Nat) : (toInt n).toNat < 2147483648 := by
  unfold toInt
  split <;> omega

theorem toInt_le (n : Nat) : (toInt n).toNat ≤ n := by
  unfold toInt
  split <;> omega

theorem toInt_eq {n : Nat} (h : n < 2147483648) : toInt n = n := by
  unfold toInt
  split <;> omega

theorem toInt_of_lt {n : Nat} (h : n < 2147483648) : (toInt n).toNat = n := by rw [toInt_eq h, Int.toNat_natCast]

theorem filter_respaced {s t : Str} (h : Respaced s t) : t.filter kept = s.filter kept := by
  induction h with
  | refl => rfl
  | @insert a b c _ hc ih =>
      rw [List.filter_append] at ih ⊢
      rw [List.filter_cons, hc]
      exact ih
  | @remove a b c _ hc ih =>
      rw [List.filter_append] at ih ⊢
      rw [List.filter_cons, hc] at ih
      exact ih

theorem b64Decode_respaced {x : Bytes} {t : Str} (h : Respaced (b64Encode x) t) : b64Decode t = some x := by
  have hdecode := b64Decode_b64Encode x
  rw [b64Decode, ← filter_respaced h] at hdecode
  exact hdecode

theorem bioText_nil : bioText [] = [] := rfl

theorem encode_ne_nil {x : Bytes} (h : x ≠ []) : encode x ≠ [] := by
  match x with
  | [_] => exact List.cons_ne_nil _ _
  | [_, _] => exact List.cons_ne_nil _ _
  | _ :: _ :: _ :: _ => exact List.cons_ne_nil _ _

theorem join_lines {ls : List Str} (h : ls ≠ []) : join newline ls ++ [newline] = ls.flatMap fun l => l ++ [newline] := by
  obtain ⟨l, ls, rfl⟩ := List.exists_cons_of_ne_nil h
  induction ls generalizing l with
  | nil => simp [join, List.intercalate]
  | cons m ms ih =>
      rw [join_cons_cons, List.append_assoc, List.cons_append, ih m (List.cons_ne_nil _ _)]
      simp

theorem bioText_of_ne_nil {x : Bytes} (h : x ≠ []) : bioText x = b64Encode x := by
  have hlines : lines 64 (encode x) ≠ [] := by
    intro hnil
    have hflat := flatten_lines (by decide : 0 < 64) (encode x)
    rw [hnil] at hflat
    exact encode_ne_nil h hflat.symm
  rw [b64Encode, join_lines hlines]
  rfl

def textSize (n : Nat) : Nat := 4 * ((n + 2) / 3) + (4 * ((n + 2) / 3) + 63) / 64

theorem length_bioText (x : Bytes) : (bioText x).length = textSize x.length := by
  have hflat := congrArg List.length (flatten_lines (by decide : 0 < 64) (encode x))
  rw [List.length_flatten] at hflat
  have hsum : ((lines 64 (encode x)).map fun line => (line ++ [newline]).length).sum =
      ((lines 64 (encode x)).map List.length).sum + (lines 64 (encode x)).length := by
    induction lines 64 (encode x) with
    | nil => rfl
    | cons l ls ih =>
        rw [List.map_cons, List.sum_cons, List.map_cons, List.sum_cons, ih, List.length_append, List.length_singleton,
          List.length_cons]
        omega
  rw [bioText, List.length_flatMap, hsum, hflat, length_lines, length_encode, textSize]

theorem length_b64Encode (x : Bytes) : (b64Encode x).length = max 1 (textSize x.length) := by
  rcases eq_or_ne x [] with rfl | hne
  · rfl
  · have hpos := List.length_pos_of_ne_nil hne
    rw [← bioText_of_ne_nil hne, length_bioText, textSize]
    omega

theorem textSize_lt_iff {n : Nat} : textSize n < 2147483648 ↔ n ≤ 1585834077 := by
  unfold textSize
  omega

theorem le_textSize (n : Nat) : n ≤ textSize n := by
  unfold textSize
  omega

theorem same_text_iff (x : Bytes) :
    (b64Encode x = base64Encode x ∧ ∀ t, Respaced (b64Encode x) t → b64Decode t = some x) ↔
      x ≠ [] ∧ x.length < 2147483648 := by
  constructor
  · rintro ⟨hsame, -⟩
    have hwritten : x.take (toInt x.length).toNat ≠ [] := by
      intro hnil
      rw [base64Encode, hnil, bioText_nil] at hsame
      exact List.append_ne_nil_of_right_ne_nil _ (List.cons_ne_nil _ _) hsame
    rw [base64Encode, bioText_of_ne_nil hwritten] at hsame
    have htake := b64Encode_injective hsame
    refine ⟨?_, ?_⟩
    · rintro rfl
      exact hwritten List.take_nil
    · have hlength := congrArg List.length htake
      rw [List.length_take] at hlength
      have hlt := toInt_lt x.length
      omega
  · rintro ⟨hne, hlength⟩
    refine ⟨?_, fun t ht => b64Decode_respaced ht⟩
    rw [base64Encode, toInt_of_lt hlength, List.take_length, bioText_of_ne_nil hne]

theorem empty_text_differs : b64Encode [] = [newline] ∧ base64Encode [] = [] ∧ b64Encode [] ≠ base64Encode [] := by
  decide

end Agent.Base64Text
