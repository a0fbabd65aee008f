import JdRelay.Base.Text

namespace Base64
open Text

def digit (i : Fin 64) : CodePoint :=
  if i.val < 26 then ⟨65 + i.val, by omega⟩
  else if i.val < 52 then ⟨71 + i.val, by omega⟩
  else if i.val < 62 then ⟨i.val - 4, by omega⟩
  else if i.val = 62 then 43
  else 47

def pad : CodePoint := 61

def value? (p : CodePoint) : Option (Fin 64) :=
  if h : 65 ≤ p.val ∧ p.val ≤ 90 then some ⟨p.val - 65, by omega⟩
  else if h : 97 ≤ p.val ∧ p.val ≤ 122 then some ⟨p.val - 71, by omega⟩
  else if h : 48 ≤ p.val ∧ p.val ≤ 57 then some ⟨p.val + 4, by omega⟩
  else if p.val = 43 then some 62
  else if p.val = 47 then some 63
  else none

@[simp] theorem value?_digit : ∀ i, value? (digit i) = some i := by decide

@[simp] theorem digit_ne_pad : ∀ i, digit i ≠ pad := by decide

def sextet (n : Nat) : Fin 64 := Fin.ofNat 64 n

theorem sextet_val (n : Nat) : (sextet n).val = n % 64 := rfl

def encode : Bytes → Str
  | [] => []
  | [a] => [digit (sextet (a.toNat / 4)), digit (sextet (a.toNat % 4 * 16)), pad, pad]
  | [a, b] =>
      [digit (sextet (a.toNat / 4)), digit (sextet (a.toNat % 4 * 16 + b.toNat / 16)),
        digit (sextet (b.toNat % 16 * 4)), pad]
  | a :: b :: c :: rest =>
      digit (sextet (a.toNat / 4)) :: digit (sextet (a.toNat % 4 * 16 + b.toNat / 16)) ::
        digit (sextet (b.toNat % 16 * 4 + c.toNat / 64)) :: digit (sextet (c.toNat % 64)) ::
        encode rest

def octet (n : Nat) : UInt8 := UInt8.ofNat n

-- binascii.a2b_base64 without strict mode: foreign characters are skipped, and the input ends
-- at the pad that completes a quad.
def a2b : Str → Nat → Nat → Nat → Option Bytes
  | [], quad, _, _ => if quad = 0 then some [] else none
  | p :: ps, quad, left, pads =>
      if p = pad then
        if 2 ≤ quad then
          if 4 ≤ quad + (pads + 1) then some [] else a2b ps quad left (pads + 1)
        else a2b ps quad left pads
      else match value? p with
        | none => a2b ps quad left pads
        | some v => match quad with
          | 0 => a2b ps 1 v.val 0
          | 1 => (a2b ps 2 (v.val % 16) 0).map (octet (left * 4 + v.val / 16) :: ·)
          | 2 => (a2b ps 3 (v.val % 4) 0).map (octet (left * 16 + v.val / 4) :: ·)
          | _ => (a2b ps 0 0 0).map (octet (left * 64 + v.val) :: ·)

def decode (s : Str) : Option Bytes := a2b s 0 0 0

theorem octet_eq {n : Nat} {a : UInt8} (h : n = a.toNat) : octet n = a := by
  rw [octet, h, UInt8.ofNat_toNat]

theorem first_octet (a : UInt8) (n : Nat) (hn : n < 16) :
    octet ((sextet (a.toNat / 4)).val * 4 + (sextet (a.toNat % 4 * 16 + n)).val / 16) = a := by
  have := a.toNat_lt
  refine octet_eq ?_
  simp only [sextet_val]
  omega

theorem second_octet (a b : UInt8) (n : Nat) (hn : n < 4) :
    octet ((sextet (a.toNat % 4 * 16 + b.toNat / 16)).val % 16 * 16 +
      (sextet (b.toNat % 16 * 4 + n)).val / 4) = b := by
  have := b.toNat_lt
  refine octet_eq ?_
  simp only [sextet_val]
  omega

theorem third_octet (b c : UInt8) :
    octet ((sextet (b.toNat % 16 * 4 + c.toNat / 64)).val % 4 * 64 +
      (sextet (c.toNat % 64)).val) = c := by
  have := c.toNat_lt
  refine octet_eq ?_
  simp only [sextet_val]
  omega

theorem a2b_encode (bs : Bytes) (pads : Nat) : ∀ left, a2b (encode bs) 0 left pads = some bs := by
  induction bs using encode.induct generalizing pads with
  | case1 => intro _; rfl
  | case2 a =>
      intro _
      have ha := first_octet a 0 (by omega)
      simp only [Nat.add_zero] at ha
      simp only [encode, a2b, digit_ne_pad, if_false, value?_digit, ha]
      simp
  | case3 a b =>
      intro _
      have ha := first_octet a (b.toNat / 16) (by have := b.toNat_lt; omega)
      have hb := second_octet a b 0 (by omega)
      simp only [Nat.add_zero] at hb
      simp only [encode, a2b, digit_ne_pad, if_false, value?_digit, ha, hb]
      simp
  | case4 a b c rest ih =>
      intro _
      have ha := first_octet a (b.toNat / 16) (by have := b.toNat_lt; omega)
      have hb := second_octet a b (c.toNat / 64) (by have := c.toNat_lt; omega)
      simp only [encode, a2b, digit_ne_pad, if_false, value?_digit, ha, hb, third_octet, ih,
        Option.map_some]

theorem decode_encode (bs : Bytes) : decode (encode bs) = some bs := a2b_encode bs 0 0

theorem length_encode (bs : Bytes) : (encode bs).length = 4 * ((bs.length + 2) / 3) := by
  induction bs using encode.induct with
  | case1 => simp [encode]
  | case2 a => simp [encode]
  | case3 a b => simp [encode]
  | case4 a b c rest ih =>
      simp only [encode, List.length_cons, ih]
      omega

theorem mem_encode {bs : Bytes} {p : CodePoint} (h : p ∈ encode bs) :
    p = pad ∨ ∃ i, p = digit i := by
  induction bs using encode.induct with
  | case1 => cases h
  | case2 a => simp only [encode, List.mem_cons, List.not_mem_nil, or_false] at h; tauto
  | case3 a b => simp only [encode, List.mem_cons, List.not_mem_nil, or_false] at h; tauto
  | case4 a b c rest ih =>
      simp only [encode, List.mem_cons] at h
      rcases h with h | h | h | h | h
      · exact .inr ⟨_, h⟩
      · exact .inr ⟨_, h⟩
      · exact .inr ⟨_, h⟩
      · exact .inr ⟨_, h⟩
      · exact ih h

theorem not_mem_encode {bs : Bytes} {p : CodePoint} (hp : p ≠ pad) (hd : ∀ i, p ≠ digit i) :
    p ∉ encode bs := fun h => (mem_encode h).elim hp fun ⟨i, hi⟩ => hd i hi

section Lines

variable {A : Type}

-- [raw[i:i+n] for i in range(0, len(raw), n)]
def lines (n : Nat) (raw : List A) : List (List A) :=
  (List.range ((raw.length + (n - 1)) / n)).map fun i => (raw.drop (n * i)).take n

theorem length_lines (n : Nat) (raw : List A) : (lines n raw).length = (raw.length + (n - 1)) / n := by
  rw [lines, List.length_map, List.length_range]

theorem take_lines (n k : Nat) (raw : List A) :
    ((List.range k).map fun i => (raw.drop (n * i)).take n).flatten = raw.take (n * k) := by
  induction k with
  | zero => simp
  | succ k ih =>
      rw [List.range_succ, List.map_append, List.flatten_append, ih, Nat.mul_succ, List.take_add]
      simp

theorem flatten_lines {n : Nat} (hn : 0 < n) (raw : List A) : (lines n raw).flatten = raw := by
  rw [lines, take_lines]
  refine List.take_of_length_le ?_
  have h := Nat.lt_mul_div_succ (raw.length + (n - 1)) hn
  rw [Nat.mul_add] at h
  omega

end Lines

end Base64
