import JdRelay.Base.Percent
import JdRelay.Base.Utf8
import JdRelay.Base.Python
import JdRelay.Agent.Nlohmann

namespace Agent.HexKey
open Text Json

-- base64.cpp: the loop breaks at the first pair that is not two digits, and a last single character is not looked at.
def hexDecode : Bytes → Bytes
  | a :: b :: rest =>
      match Percent.hexValue a, Percent.hexValue b with
      | some hi, some lo => UInt8.ofNat (16 * hi + lo) :: hexDecode rest
      | _, _ => []
  | _ => []

def sizeError (length : Nat) : Str :=
  str "AES-256-GCM requires a 64-char hex key, got " ++ Number.natStr length ++ str " chars"

-- AesGcmCipher(const std::string& hex_key)
def aesGcmCipher (hexKey : Bytes) : Except Exn Bytes :=
  let key := hexDecode hexKey
  if key.length ≠ 32 then .error (.invalidArgument (sizeError hexKey.length)) else .ok key

-- Py_ISSPACE
def space (p : CodePoint) : Bool := p.val = 32 || decide (9 ≤ p.val) && decide (p.val ≤ 13)

-- bytes.fromhex, none where it raises.
def fromhex : Str → Option Bytes
  | [] => some []
  | a :: rest =>
      if space a then fromhex rest
      else
        match rest with
        | [] => none
        | b :: rest =>
            match hexDigit? a, hexDigit? b with
            | some hi, some lo => (fromhex rest).map (UInt8.ofNat (16 * hi + lo) :: ·)
            | _, _ => none

def fromHex (hexKey : Str) : Except Python.Error Bytes :=
  match fromhex hexKey with
  | none => .error .valueError
  | some key => if key.length ≠ 32 then .error .valueError else .ok key

def isHex (p : CodePoint) : Bool := (hexDigit? p).isSome

structure Digits (n : Nat) (h : Str) : Prop where
  length : h.length = 2 * n
  hex : ∀ p ∈ h, isHex p = true

def Blank (s : Str) : Prop := ∀ p ∈ s, space p = true

def More (s : Str) : Prop := ∃ a b rest, s = a :: b :: rest ∧ isHex a = true ∧ isHex b = true

inductive HexPairs : Nat → Str → Prop where
  | nil : HexPairs 0 []
  | blank {n : Nat} {p : CodePoint} {s : Str} (hp : space p = true) (h : HexPairs n s) : HexPairs n (p :: s)
  | pair {n : Nat} {a b : CodePoint} {s : Str} (ha : isHex a = true) (hb : isHex b = true) (h : HexPairs n s) :
      HexPairs (n + 1) (a :: b :: s)

structure Plain (s : Str) : Prop where
  tail : ∀ h r, s = h ++ r → Digits 32 h → Blank r ∨ More r
  inside : HexPairs 32 s → ∃ h r, s = h ++ r ∧ Digits 32 h

section Characters

def readPairs : Str → Bytes
  | a :: b :: rest =>
      match hexDigit? a, hexDigit? b with
      | some hi, some lo => UInt8.ofNat (16 * hi + lo) :: readPairs rest
      | _, _ => []
  | _ => []

theorem hexValue_high {b : UInt8} (h : 128 ≤ b.toNat) : Percent.hexValue b = none := by
  rw [Percent.hexValue, if_neg (by omega), if_neg (by omega), if_neg (by omega)]

theorem hexDigit?_high {p : CodePoint} (h : 128 ≤ p.val) : hexDigit? p = none := by
  rw [hexDigit?, if_neg (by omega), if_neg (by omega), if_neg (by omega)]

theorem hexValue_ascii {c : Char} (h : c.toNat < 128) : Percent.hexValue (UInt8.ofNat c.toNat) = hexDigit? (ofChar c) := by
  have hall : ∀ i : Fin 128, Percent.hexValue (UInt8.ofNat i) = hexDigit? (Fin.castLE (by decide) i) := by decide
  exact hall ⟨c.toNat, h⟩

theorem readPairs_left {a : CodePoint} (h : hexDigit? a = none) (rest : Str) : readPairs (a :: rest) = [] := by
  cases rest with
  | nil => rfl
  | cons b rest => rw [readPairs, h]

theorem readPairs_right {a b : CodePoint} (h : hexDigit? b = none) (rest : Str) : readPairs (a :: b :: rest) = [] := by
  rw [readPairs, h]
  cases hexDigit? a <;> rfl

theorem hexDecode_left {a : UInt8} (h : 128 ≤ a.toNat) (rest : Bytes) : hexDecode (a :: rest) = [] := by
  cases rest with
  | nil => rfl
  | cons b rest => rw [hexDecode, hexValue_high h]

theorem hexDecode_right {a b : UInt8} (h : 128 ≤ b.toNat) (rest : Bytes) : hexDecode (a :: b :: rest) = [] := by
  rw [hexDecode, hexValue_high h]
  cases Percent.hexValue a <;> rfl

theorem hexDecode_utf8 : ∀ cs : List Char, hexDecode (cs.flatMap String.utf8EncodeChar) = readPairs (cs.map ofChar)
  | [] => rfl
  | [a] => by
      rcases utf8EncodeChar_cases a with ⟨-, ha⟩ | ⟨-, b, x, rest, ha, hb⟩
      · rw [List.flatMap_cons, ha]
        rfl
      · rw [List.flatMap_cons, ha]
        exact hexDecode_left hb _
  | a :: b :: cs => by
      rw [List.flatMap_cons, List.flatMap_cons, List.map_cons, List.map_cons]
      rcases utf8EncodeChar_cases a with ⟨hsmall, ha⟩ | ⟨hlarge, x, y, rest, ha, hx⟩
      · rcases utf8EncodeChar_cases b with ⟨hsmall', hb⟩ | ⟨hlarge, x, y, rest, hb, hx⟩
        · rw [ha, hb]
          simp only [List.cons_append, List.nil_append, hexDecode, readPairs, hexValue_ascii hsmall,
            hexValue_ascii hsmall', hexDecode_utf8 cs]
        · rw [ha, hb, readPairs_right (hexDigit?_high hlarge)]
          exact hexDecode_right hx _
      · rw [ha, readPairs_left (hexDigit?_high hlarge)]
        exact hexDecode_left hx _

end Characters

section Shapes

variable {n : Nat} {h r s : Str}

theorem not_space_of_isHex {p : CodePoint} (hp : isHex p = true) : space p = false := by
  by_contra hspace
  simp only [space, Bool.not_eq_false, Bool.or_eq_true, Bool.and_eq_true, decide_eq_true_eq] at hspace
  rw [isHex, hexDigit?, if_neg (by omega), if_neg (by omega), if_neg (by omega)] at hp
  cases hp

theorem isHex_eq {p : CodePoint} (hp : isHex p = true) : ∃ v, hexDigit? p = some v := Option.isSome_iff_exists.mp hp

theorem readPairs_pair {a b : CodePoint} (ha : isHex a = true) (hb : isHex b = true) :
    ∃ x, ∀ rest, readPairs (a :: b :: rest) = x :: readPairs rest ∧
      fromhex (a :: b :: rest) = (fromhex rest).map (x :: ·) := by
  obtain ⟨hi, hhi⟩ := isHex_eq ha
  obtain ⟨lo, hlo⟩ := isHex_eq hb
  refine ⟨UInt8.ofNat (16 * hi + lo), fun rest => ⟨?_, ?_⟩⟩
  · simp only [readPairs, hhi, hlo]
  · simp only [fromhex, not_space_of_isHex ha, hhi, hlo, Bool.false_eq_true, if_false]

theorem digits_succ (hd : Digits (n + 1) h) :
    ∃ a b h', h = a :: b :: h' ∧ isHex a = true ∧ isHex b = true ∧ Digits n h' := by
  match h, hd with
  | [], hd => exact absurd hd.length (by simp)
  | [_], hd => exact absurd hd.length (by simp; omega)
  | a :: b :: h', hd =>
      refine ⟨a, b, h', rfl, hd.hex a (by simp), hd.hex b (by simp), ?_, fun p hp => hd.hex p (by simp [hp])⟩
      have hlength := hd.length
      simp only [List.length_cons] at hlength
      omega

theorem read_append (hd : Digits n h) (r : Str) :
    ∃ key, key.length = n ∧ readPairs (h ++ r) = key ++ readPairs r ∧ fromhex (h ++ r) = (fromhex r).map (key ++ ·) := by
  induction n generalizing h with
  | zero =>
      obtain rfl := List.length_eq_zero_iff.mp hd.length
      exact ⟨[], rfl, rfl, by simp⟩
  | succ n ih =>
      obtain ⟨a, b, h', rfl, ha, hb, hd'⟩ := digits_succ hd
      obtain ⟨x, hx⟩ := readPairs_pair ha hb
      obtain ⟨key, hlength, hread, hfrom⟩ := ih hd'
      refine ⟨x :: key, by rw [List.length_cons, hlength], ?_, ?_⟩
      · rw [List.cons_append, List.cons_append, (hx _).1, hread, List.cons_append]
      · rw [List.cons_append, List.cons_append, (hx _).2, hfrom, Option.map_map]
        rfl

theorem digits_of_length (hn : n ≤ (readPairs s).length) : ∃ h r, s = h ++ r ∧ Digits n h := by
  induction n generalizing s with
  | zero => exact ⟨[], s, rfl, rfl, by simp⟩
  | succ n ih =>
      match s with
      | [] | [_] => cases hn
      | a :: b :: rest =>
          cases ha : hexDigit? a with
          | none =>
              rw [readPairs_left ha] at hn
              cases hn
          | some hi =>
              cases hb : hexDigit? b with
              | none =>
                  rw [readPairs_right hb] at hn
                  cases hn
              | some lo =>
                  have ha' : isHex a = true := by rw [isHex, ha]; rfl
                  have hb' : isHex b = true := by rw [isHex, hb]; rfl
                  obtain ⟨x, hx⟩ := readPairs_pair ha' hb'
                  rw [(hx rest).1, List.length_cons] at hn
                  obtain ⟨h, r, rfl, hd⟩ := ih (Nat.le_of_succ_le_succ hn)
                  refine ⟨a :: b :: h, r, rfl, ?_, ?_⟩
                  · rw [List.length_cons, List.length_cons, hd.length]
                    omega
                  · simpa [ha', hb'] using hd.hex

theorem readPairs_eq_nil (hmore : ¬More r) : readPairs r = [] := by
  by_contra hne
  have hpos : 1 ≤ (readPairs r).length := List.length_pos_of_ne_nil hne
  obtain ⟨h, r', rfl, hd⟩ := digits_of_length hpos
  obtain ⟨a, b, h', rfl, ha, hb, -⟩ := digits_succ hd
  exact hmore ⟨a, b, h' ++ r', rfl, ha, hb⟩

theorem fromhex_blank {p : CodePoint} (hp : space p = true) (s : Str) : fromhex (p :: s) = fromhex s := by
  cases s <;> simp only [fromhex, hp, if_true]

theorem fromhex_of_blank (hr : Blank r) : fromhex r = some [] := by
  induction r with
  | nil => rfl
  | cons p r ih =>
      rw [fromhex_blank (hr p List.mem_cons_self)]
      exact ih fun q hq => hr q (List.mem_cons_of_mem _ hq)

theorem not_more_of_blank (hr : Blank r) : ¬More r := by
  rintro ⟨a, b, rest, rfl, ha, -⟩
  have hspace := hr a List.mem_cons_self
  rw [not_space_of_isHex ha] at hspace
  cases hspace

theorem hexPairs_iff : HexPairs n s ↔ ∃ key, fromhex s = some key ∧ key.length = n := by
  constructor
  · intro h
    induction h with
    | nil => exact ⟨[], rfl, rfl⟩
    | blank hp _ ih => rwa [fromhex_blank hp]
    | pair ha hb _ ih =>
        obtain ⟨key, hkey, hlength⟩ := ih
        obtain ⟨x, hx⟩ := readPairs_pair ha hb
        exact ⟨x :: key, by rw [(hx _).2, hkey]; rfl, by rw [List.length_cons, hlength]⟩
  · rintro ⟨key, hkey, rfl⟩
    fun_induction fromhex s generalizing key with
    | case1 =>
        cases hkey
        exact .nil
    | case2 a rest hspace ih => exact .blank hspace (ih key hkey)
    | case3 => cases hkey
    | case4 a hspace b rest hi lo hlo hhi ih =>
        obtain ⟨key, hkey', rfl⟩ := Option.map_eq_some_iff.mp hkey
        exact .pair (by rw [isHex, hhi]; rfl) (by rw [isHex, hlo]; rfl) (ih key hkey')
    | case5 => cases hkey

theorem blank_of_hexPairs (h : HexPairs 0 r) : Blank r := by
  generalize hn : 0 = n at h
  induction h with
  | nil => exact fun p hp => by cases hp
  | blank hp _ ih =>
      intro q hq
      rcases List.mem_cons.mp hq with rfl | hq
      · exact hp
      · exact ih hn q hq
  | pair => cases hn

end Shapes

section Agreement

variable {cs : List Char} {s : Str} {key : Bytes}

theorem aesGcmCipher_ok : (aesGcmCipher (cs.flatMap String.utf8EncodeChar)).toOption = some key ↔
    readPairs (cs.map ofChar) = key ∧ key.length = 32 := by
  rw [aesGcmCipher, hexDecode_utf8]
  split
  · rename_i hlength
    exact ⟨fun h => (by cases h), fun h => absurd (h.1 ▸ h.2) hlength⟩
  · rename_i hlength
    rw [not_not] at hlength
    exact ⟨fun h => (by cases h; exact ⟨rfl, hlength⟩), fun h => congrArg some h.1⟩

theorem fromHex_ok : (fromHex s).toOption = some key ↔ fromhex s = some key ∧ key.length = 32 := by
  unfold fromHex
  split
  · rename_i hnone
    rw [hnone]
    exact ⟨fun h => (by cases h), fun h => (by cases h.1)⟩
  · rename_i key' hsome
    rw [hsome]
    split
    · rename_i hlength
      exact ⟨fun h => (by cases h), fun h => absurd (Option.some.inj h.1 ▸ h.2) hlength⟩
    · rename_i hlength
      rw [not_not] at hlength
      exact ⟨fun h => (by cases h; exact ⟨rfl, hlength⟩), fun h => h.1⟩

theorem plain_of_same (h : ∀ key, readPairs s = key ∧ key.length = 32 ↔ fromhex s = some key ∧ key.length = 32) :
    Plain s := by
  refine ⟨fun d r hs hd => or_iff_not_imp_right.mpr fun hmore => ?_, fun hpairs => ?_⟩
  · subst hs
    obtain ⟨key, hlength, hread, hfrom⟩ := read_append hd r
    rw [readPairs_eq_nil hmore, List.append_nil] at hread
    have hpy := ((h key).mp ⟨hread, hlength⟩).1
    rw [hfrom] at hpy
    obtain ⟨rest, hrest, hkey⟩ := Option.map_eq_some_iff.mp hpy
    have hnil : rest = [] := List.append_right_eq_self.mp hkey
    exact blank_of_hexPairs (hexPairs_iff.mpr ⟨rest, hrest, by rw [hnil]; rfl⟩)
  · obtain ⟨key, hfrom, hlength⟩ := hexPairs_iff.mp hpairs
    obtain ⟨hread, -⟩ := (h key).mpr ⟨hfrom, hlength⟩
    exact digits_of_length (by rw [hread, hlength])

theorem same_of_plain (h : Plain s) (key : Bytes) :
    readPairs s = key ∧ key.length = 32 ↔ fromhex s = some key ∧ key.length = 32 := by
  refine and_congr_left fun hlength => ?_
  by_cases hstart : ∃ d r, s = d ++ r ∧ Digits 32 d
  · obtain ⟨d, r, rfl, hd⟩ := hstart
    obtain ⟨front, hfront, hread, hfrom⟩ := read_append hd r
    rw [hread, hfrom]
    rcases h.tail d r rfl hd with hblank | ⟨a, b, rest, rfl, ha, hb⟩
    · rw [readPairs_eq_nil (not_more_of_blank hblank), fromhex_of_blank hblank, Option.map_some, List.append_nil,
        Option.some.injEq]
    · obtain ⟨x, hx⟩ := readPairs_pair ha hb
      rw [(hx rest).1, (hx rest).2]
      refine iff_of_false ?_ ?_
      · rintro rfl
        simp [hfront] at hlength
      · intro hkey
        obtain ⟨y, hy, rfl⟩ := Option.map_eq_some_iff.mp hkey
        obtain ⟨z, -, rfl⟩ := Option.map_eq_some_iff.mp hy
        simp [hfront] at hlength
  · refine iff_of_false ?_ ?_
    · rintro rfl
      exact hstart (digits_of_length hlength.ge)
    · exact fun hfrom => hstart (h.inside (hexPairs_iff.mpr ⟨key, hfrom, hlength⟩))

theorem hex_keys_agree_iff (cs : List Char) :
    (aesGcmCipher (cs.flatMap String.utf8EncodeChar)).toOption = (fromHex (cs.map ofChar)).toOption ↔
      Plain (cs.map ofChar) := by
  have hiff : ((aesGcmCipher (cs.flatMap String.utf8EncodeChar)).toOption = (fromHex (cs.map ofChar)).toOption) ↔
      ∀ key, readPairs (cs.map ofChar) = key ∧ key.length = 32 ↔ fromhex (cs.map ofChar) = some key ∧ key.length = 32 := by
    rw [Option.ext_iff]
    exact forall_congr' fun key => by rw [aesGcmCipher_ok, fromHex_ok]
  rw [hiff]
  exact ⟨plain_of_same, same_of_plain⟩

def zeros (n : Nat) : List Char := List.replicate n '0'

-- Junk and a lone digit behind the key are nothing to one side, a blank inside it is nothing to the other.
theorem junk_and_blanks_differ :
    (aesGcmCipher ((zeros 64 ++ ['x']).flatMap String.utf8EncodeChar) = .ok (List.replicate 32 0) ∧
      fromHex ((zeros 64 ++ ['x']).map ofChar) = .error .valueError) ∧
    (aesGcmCipher ((zeros 65).flatMap String.utf8EncodeChar) = .ok (List.replicate 32 0) ∧
      fromHex ((zeros 65).map ofChar) = .error .valueError) ∧
    (aesGcmCipher ((' ' :: zeros 64).flatMap String.utf8EncodeChar) = .error (.invalidArgument (sizeError 65)) ∧
      fromHex ((' ' :: zeros 64).map ofChar) = .ok (List.replicate 32 0)) := by
  decide +kernel

end Agreement

end Agent.HexKey
