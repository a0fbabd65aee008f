import JdRelay.Base.Text

namespace Number
open Text

def IntChar (p : CodePoint) : Prop := p = ofChar '-' ∨ ∃ c, c.isDigit = true ∧ p = ofChar c

theorem ofChar_injective {c d : Char} (h : ofChar c = ofChar d) : c = d := by
  have hc := toChar?_ofChar c
  rw [h, toChar?_ofChar d] at hc
  exact (Option.some.inj hc).symm

theorem not_intChar {c : Char} (hm : c ≠ '-') (hd : c.isDigit = false) : ¬ IntChar (ofChar c) := by
  rintro (h | ⟨d, hdig, h⟩)
  · exact hm (ofChar_injective h)
  · rw [ofChar_injective h, hdig] at hd
    cases hd

def natStr (n : Nat) : Str := (Nat.toDigits 10 n).map ofChar

def intStr : Int → Str
  | .ofNat n => natStr n
  | .negSucc n => ofChar '-' :: natStr (n + 1)

theorem natStr_chars {n : Nat} {p : CodePoint} (h : p ∈ natStr n) :
    ∃ c, c.isDigit = true ∧ p = ofChar c := by
  obtain ⟨c, hc, rfl⟩ := List.mem_map.mp h
  exact ⟨c, Nat.isDigit_of_mem_toDigits (by omega) (by omega) hc, rfl⟩

theorem intStr_chars {n : Int} {p : CodePoint} (h : p ∈ intStr n) : IntChar p := by
  cases n with
  | ofNat n => exact .inr (natStr_chars h)
  | negSucc n =>
      rcases List.mem_cons.mp h with h | h
      · exact .inl h
      · exact .inr (natStr_chars h)

theorem scalar_intStr (n : Int) : Scalar (intStr n) := by
  intro p hp
  rcases intStr_chars hp with rfl | ⟨c, -, rfl⟩ <;> rw [toChar?_ofChar] <;> rfl

theorem natStr_injective {m n : Nat} (h : natStr m = natStr n) : m = n := by
  have hd : Nat.toDigits 10 m = Nat.toDigits 10 n :=
    List.map_injective_iff.mpr (fun _ _ => ofChar_injective) h
  rw [← @Nat.ofDigitChars_ten_toDigits m, hd, Nat.ofDigitChars_ten_toDigits]

theorem minus_notMem_natStr (n : Nat) : ofChar '-' ∉ natStr n := by
  intro h
  obtain ⟨c, hc, he⟩ := natStr_chars h
  rw [← ofChar_injective he] at hc
  cases hc

theorem intStr_injective {m n : Int} (h : intStr m = intStr n) : m = n := by
  cases m with
  | ofNat m =>
      cases n with
      | ofNat n => rw [natStr_injective h]
      | negSucc n =>
          have he : natStr m = ofChar '-' :: natStr (n + 1) := h
          exact absurd (he ▸ List.mem_cons_self) (minus_notMem_natStr m)
  | negSucc m =>
      cases n with
      | ofNat n =>
          have he : natStr n = ofChar '-' :: natStr (m + 1) := h.symm
          exact absurd (he ▸ List.mem_cons_self) (minus_notMem_natStr n)
      | negSucc n =>
          have hs := natStr_injective (List.cons.inj h).2
          rw [Nat.succ.inj hs]

-- A binary64 value: `fin neg m e` is m * 2 ^ e with the sign neg.
inductive Double where
  | nan
  | inf (neg : Bool)
  | fin (neg : Bool) (mant : Nat) (exp : Int)
  deriving DecidableEq, Repr

namespace Double

def mul2 (n : Nat) (e : Int) : Nat := n * 2 ^ e.toNat

-- ⌊num / den * 2 ^ (-e)⌋ and whether the rest rounds up, ties to even.
def scaled (num den : Nat) (e : Int) : Nat × Bool :=
  let a := mul2 num (-e)
  let b := mul2 den e
  let q := a / b
  let r := a % b
  (q, decide (b < 2 * r) || (decide (2 * r = b) && decide (q % 2 = 1)))

def expOf (num den : Nat) : Int :=
  let e : Int := (Nat.log2 num : Int) - Nat.log2 den - 52
  if 2 ^ 53 ≤ (scaled num den e).1 then e + 1
  else if (scaled num den e).1 < 2 ^ 52 then e - 1
  else e

def round (neg : Bool) (num den : Nat) : Double :=
  let e := max (expOf num den) (-1074)
  let (q, up) := scaled num den e
  let m := if up then q + 1 else q
  let (m, e) := if m = 2 ^ 53 then (2 ^ 52, e + 1) else (m, e)
  if 971 < e then inf neg else fin neg m e

def ofDecimal (neg : Bool) (digits : Nat) (e10 : Int) : Double :=
  let size : Int := (Nat.toDigits 10 digits).length + e10
  if digits = 0 then fin neg 0 (-1074)
  else if 310 < size then inf neg
  else if size < -330 then fin neg 0 (-1074)
  else round neg (digits * 10 ^ e10.toNat) (10 ^ (-e10).toNat)

def cmpInt (neg : Bool) (m : Nat) (e : Int) (n : Int) : Ordering :=
  let a : Int := mul2 m e
  let b : Int := n * 2 ^ (-e).toNat
  compare (if neg then -a else a) b

def geInt : Double → Int → Bool
  | nan, _ => false
  | inf neg, _ => !neg
  | fin neg m e, n => cmpInt neg m e n != .lt

def leInt : Double → Int → Bool
  | nan, _ => false
  | inf neg, _ => neg
  | fin neg m e, n => cmpInt neg m e n != .gt

def integer? : Double → Option Int
  | nan => none
  | inf _ => none
  | fin neg m e =>
      if mul2 1 (-e) ∣ m then
        let n : Int := mul2 m e / mul2 1 (-e)
        some (if neg then -n else n)
      else none

theorem le_of_between {x : Double} {lo hi : Int} (hlo : x.geInt lo = true) (hhi : x.leInt hi = true) : lo ≤ hi := by
  cases x with
  | nan => cases hlo
  | inf neg =>
      cases neg with
      | false => cases hhi
      | true => cases hlo
  | fin neg m e =>
      have hge : lo * 2 ^ (-e).toNat ≤ if neg then -(mul2 m e : Int) else mul2 m e := by
        simpa [geInt, cmpInt, compare_lt_iff_lt] using hlo
      have hle : (if neg then -(mul2 m e : Int) else mul2 m e) ≤ hi * 2 ^ (-e).toNat := by
        simpa [leInt, cmpInt, compare_gt_iff_gt] using hhi
      exact le_of_mul_le_mul_right (hge.trans hle) (by positivity)

def zeros (n : Nat) : List Char := List.replicate n '0'

-- value = 0.d₁d₂… * 10 ^ point
def fixed (ds : List Char) (point : Int) : List Char :=
  if point ≤ 0 then '0' :: '.' :: zeros (-point).toNat ++ ds
  else if (ds.length : Int) ≤ point then ds ++ zeros (point - ds.length).toNat ++ ['.', '0']
  else ds.take point.toNat ++ '.' :: ds.drop point.toNat

def scientific (ds : List Char) (point : Int) : List Char :=
  let e := point - 1
  let mag := Nat.toDigits 10 e.natAbs
  ds.take 1 ++ (if ds.length ≤ 1 then [] else '.' :: ds.drop 1) ++
    'e' :: (if e < 0 then '-' else '+') :: (zeros (2 - mag.length) ++ mag)

def layout (ds : List Char) (point : Int) : List Char :=
  if point ≤ -4 ∨ 16 < point then scientific ds point else fixed ds point

-- The n-digit decimals on both sides of num / den, the nearer one first.
def candidates (num den n : Nat) (point : Int) : List (Nat × Int) :=
  let e := point - n
  let a := num * 10 ^ (-e).toNat
  let b := den * 10 ^ e.toNat
  let q := a / b
  if 2 * (a % b) < b ∨ (2 * (a % b) = b ∧ q % 2 = 0) then [(q, e), (q + 1, e)] else [(q + 1, e), (q, e)]

def pointOf (num den : Nat) : Int :=
  let p : Int := (Nat.toDigits 10 num).length - (Nat.toDigits 10 den).length
  if num * 10 ^ (-p).toNat < den * 10 ^ p.toNat then p else p + 1

def stripped (n : Nat) (e : Int) : List Char × Int :=
  let ds := Nat.toDigits 10 n
  ((ds.reverse.dropWhile (· = '0')).reverse, ds.length + e)

def shortest (m : Nat) (e : Int) : List Char × Int :=
  let num := mul2 m e
  let den := mul2 1 (-e)
  let found := (List.range 17).findSome? fun k =>
    (candidates num den (k + 1) (pointOf num den)).find? fun c => ofDecimal false c.1 c.2 = fin false m e
  match found with
  | some (n, e10) => stripped n e10
  | none => stripped num 0

def reprChars : Double → List Char
  | nan => ['n', 'a', 'n']
  | inf false => ['i', 'n', 'f']
  | inf true => ['-', 'i', 'n', 'f']
  | fin neg m e =>
      let body := if m = 0 then ['0', '.', '0'] else layout (shortest m e).1 (shortest m e).2
      if neg then '-' :: body else body

def reprStr (x : Double) : Str := x.reprChars.map ofChar

theorem fixed_mark (ds : List Char) (point : Int) : '.' ∈ fixed ds point := by
  unfold fixed
  split
  · simp
  · split <;> simp

theorem layout_mark (ds : List Char) (point : Int) : '.' ∈ layout ds point ∨ 'e' ∈ layout ds point := by
  unfold layout
  split
  · exact .inr (by simp [scientific])
  · exact .inl (fixed_mark ds point)

theorem reprChars_mark (x : Double) : ∃ c ∈ x.reprChars, c = '.' ∨ c = 'e' ∨ c = 'n' := by
  cases x with
  | nan => exact ⟨'n', by simp [reprChars]⟩
  | inf neg => cases neg <;> exact ⟨'n', by simp [reprChars]⟩
  | fin neg m e =>
      have body : ∃ c ∈ (if m = 0 then ['0', '.', '0'] else layout (shortest m e).1 (shortest m e).2),
          c = '.' ∨ c = 'e' ∨ c = 'n' := by
        split
        · exact ⟨'.', by simp⟩
        · rcases layout_mark (shortest m e).1 (shortest m e).2 with h | h
          · exact ⟨'.', h, by simp⟩
          · exact ⟨'e', h, by simp⟩
      obtain ⟨c, hc, hmark⟩ := body
      refine ⟨c, ?_, hmark⟩
      cases neg
      · exact hc
      · exact List.mem_cons_of_mem _ hc

theorem reprStr_ne_intStr (x : Double) (n : Int) : x.reprStr ≠ intStr n := by
  intro h
  obtain ⟨c, hc, hmark⟩ := reprChars_mark x
  have hmem : ofChar c ∈ intStr n := h ▸ List.mem_map_of_mem hc
  rcases hmark with rfl | rfl | rfl
  · exact not_intChar (by decide) (by decide) (intStr_chars hmem)
  · exact not_intChar (by decide) (by decide) (intStr_chars hmem)
  · exact not_intChar (by decide) (by decide) (intStr_chars hmem)

end Double
end Number
