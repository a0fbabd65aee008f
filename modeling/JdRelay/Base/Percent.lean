import JdRelay.Base.Text

namespace Percent
open Text

def mark : UInt8 := 37

def hexDigit (n : Nat) : UInt8 := UInt8.ofNat (if n < 10 then 48 + n else 55 + n)

def hexValue (b : UInt8) : Option Nat :=
  if 48 ≤ b.toNat ∧ b.toNat ≤ 57 then some (b.toNat - 48)
  else if 65 ≤ b.toNat ∧ b.toNat ≤ 70 then some (b.toNat - 55)
  else if 97 ≤ b.toNat ∧ b.toNat ≤ 102 then some (b.toNat - 87)
  else none

def encodeByte (b : UInt8) : Bytes := [mark, hexDigit (b.toNat / 16), hexDigit (b.toNat % 16)]

-- A-Z a-z 0-9 - . _ ~
def unreserved (b : UInt8) : Bool :=
  65 ≤ b.toNat && b.toNat ≤ 90 || 97 ≤ b.toNat && b.toNat ≤ 122 || 48 ≤ b.toNat && b.toNat ≤ 57 ||
    b.toNat = 45 || b.toNat = 46 || b.toNat = 95 || b.toNat = 126

def escape (s : Bytes) : Bytes := s.flatMap fun b => if unreserved b then [b] else encodeByte b

-- A mark that no two hexadecimal digits follow stands for itself.
def decode : Bytes → Bytes
  | b :: x :: y :: rest =>
      match decide (b = mark), hexValue x, hexValue y with
      | true, some hi, some lo => UInt8.ofNat (16 * hi + lo) :: decode rest
      | _, _, _ => b :: decode (x :: y :: rest)
  | s => s

theorem hexValue_hexDigit {n : Nat} (h : n < 16) : hexValue (hexDigit n) = some n := by
  have hall : ∀ i : Fin 16, hexValue (hexDigit i) = some i.val := by decide
  exact hall ⟨n, h⟩

theorem decode_cons {b : UInt8} (h : b ≠ mark) (rest : Bytes) : decode (b :: rest) = b :: decode rest := by
  match rest with
  | [] => rfl
  | [_] => rfl
  | _ :: _ :: _ => rw [decode, decide_eq_false h]

theorem decode_encodeByte (b : UInt8) (rest : Bytes) : decode (encodeByte b ++ rest) = b :: decode rest := by
  have hb : b.toNat < 256 := b.toNat_lt
  have hsum : 16 * (b.toNat / 16) + b.toNat % 16 = b.toNat := Nat.div_add_mod _ _
  simp only [encodeByte, List.cons_append, List.nil_append, decode, decide_true]
  rw [hexValue_hexDigit (by omega), hexValue_hexDigit (by omega)]
  simp only [hsum, UInt8.ofNat_toNat]

theorem unreserved_ne_mark {b : UInt8} (h : unreserved b = true) : b ≠ mark := by
  rintro rfl
  cases h

theorem decode_escape_append (s rest : Bytes) : decode (escape s ++ rest) = s ++ decode rest := by
  induction s with
  | nil => rfl
  | cons b s ih =>
      rw [escape, List.flatMap_cons, List.append_assoc]
      split
      · rename_i hb
        rw [List.singleton_append, decode_cons (unreserved_ne_mark hb)]
        exact congrArg (b :: ·) ih
      · rw [decode_encodeByte]
        exact congrArg (b :: ·) ih

theorem decode_escape (s : Bytes) : decode (escape s) = s := by
  have h := decode_escape_append s []
  rwa [List.append_nil, show decode [] = [] from rfl, List.append_nil] at h

theorem length_decode_le (s : Bytes) : (decode s).length ≤ s.length := by
  fun_induction decode s with
  | case1 b x y rest hi lo _ _ _ ih =>
      simp only [List.length_cons]
      omega
  | case2 b x y rest _ ih =>
      rw [List.length_cons, List.length_cons]
      exact Nat.succ_le_succ ih
  | case3 s _ => exact le_refl _

theorem unreserved_hexDigit {n : Nat} (h : n < 16) : unreserved (hexDigit n) = true := by
  have hall : ∀ i : Fin 16, unreserved (hexDigit i) = true := by decide
  exact hall ⟨n, h⟩

theorem mem_escape {b : UInt8} {s : Bytes} (h : b ∈ escape s) : b = mark ∨ unreserved b = true := by
  obtain ⟨c, -, hb⟩ := List.mem_flatMap.mp h
  split at hb
  · rename_i hc
    rw [List.mem_singleton.mp hb]
    exact .inr hc
  · have hc : c.toNat < 256 := c.toNat_lt
    simp only [encodeByte, List.mem_cons, List.not_mem_nil, or_false] at hb
    rcases hb with rfl | rfl | rfl
    · exact .inl rfl
    · exact .inr (unreserved_hexDigit (by omega))
    · exact .inr (unreserved_hexDigit (by omega))

theorem notMem_escape {b : UInt8} {s : Bytes} (hb : unreserved b = false) (hmark : b ≠ mark) : b ∉ escape s := by
  intro h
  rcases mem_escape h with rfl | h
  · exact hmark rfl
  · rw [hb] at h
    cases h

-- application/x-www-form-urlencoded
section Form

def ampersand : UInt8 := 38

def plus : UInt8 := 43

def equals : UInt8 := 61

def decodePart (s : Bytes) : Bytes := decode (s.map fun b => if b = plus then 32 else b)

def parsePair (s : Bytes) : Bytes × Bytes :=
  (decodePart (s.takeWhile (· ≠ equals)), decodePart ((s.dropWhile (· ≠ equals)).drop 1))

def parseForm (s : Bytes) : List (Bytes × Bytes) := ((s.splitOn ampersand).filter (· ≠ [])).map parsePair

def formPair (p : Bytes × Bytes) : Bytes := escape p.1 ++ equals :: escape p.2

theorem decodePart_escape (s : Bytes) : decodePart (escape s) = s := by
  have hplus : (escape s).map (fun b => if b = plus then 32 else b) = escape s := by
    refine (List.map_congr_left fun b hb => if_neg ?_).trans (List.map_id _)
    rintro rfl
    exact notMem_escape (by decide) (by decide) hb
  rw [decodePart, hplus, decode_escape]

theorem parsePair_formPair (p : Bytes × Bytes) : parsePair (formPair p) = p := by
  have hkey : ∀ b ∈ escape p.1, decide (b ≠ equals) = true := by
    refine fun b hb => decide_eq_true ?_
    rintro rfl
    exact notMem_escape (by decide) (by decide) hb
  have htake : (formPair p).takeWhile (· ≠ equals) = escape p.1 := by
    rw [formPair, List.takeWhile_append_of_pos hkey]
    simp
  have hdrop : (formPair p).dropWhile (· ≠ equals) = equals :: escape p.2 := by
    rw [formPair, List.dropWhile_append_of_pos hkey]
    simp
  rw [parsePair, htake, hdrop, decodePart_escape, List.drop_one, List.tail_cons, decodePart_escape]

theorem ampersand_notMem_formPair (p : Bytes × Bytes) : ampersand ∉ formPair p := by
  simp only [formPair, List.mem_append, List.mem_cons]
  rintro (h | h | h)
  · exact notMem_escape (by decide) (by decide) h
  · exact absurd h (by decide)
  · exact notMem_escape (by decide) (by decide) h

theorem parseForm_join (ps : List (Bytes × Bytes)) : parseForm (join ampersand (ps.map formPair)) = ps := by
  cases ps with
  | nil => rfl
  | cons p ps =>
      have hclean : ∀ l ∈ (p :: ps).map formPair, ampersand ∉ l := by
        intro l hl
        obtain ⟨q, -, rfl⟩ := List.mem_map.mp hl
        exact ampersand_notMem_formPair q
      have hfull : ∀ l ∈ (p :: ps).map formPair, decide (l ≠ []) = true := by
        intro l hl
        obtain ⟨q, -, rfl⟩ := List.mem_map.mp hl
        exact decide_eq_true (by simp [formPair])
      rw [parseForm, join, List.splitOn_intercalate _ hclean (by simp), List.filter_eq_self.mpr hfull, List.map_map]
      exact (List.map_congr_left fun q _ => parsePair_formPair q).trans (List.map_id _)

end Form

end Percent
