import JdRelay.Base.Json

namespace Json
open Text Number

section Strings

def hexDigits (n : Nat) : Str :=
  [ofChar (Nat.digitChar (n / 4096 % 16)), ofChar (Nat.digitChar (n / 256 % 16)), ofChar (Nat.digitChar (n / 16 % 16)),
    ofChar (Nat.digitChar (n % 16))]

theorem toDigits_hex {n : Nat} (hn : n < 65536) :
    List.replicate (4 - (Nat.toDigits 16 n).length) '0' ++ Nat.toDigits 16 n =
      [Nat.digitChar (n / 4096 % 16), Nat.digitChar (n / 256 % 16), Nat.digitChar (n / 16 % 16),
        Nat.digitChar (n % 16)] := by
  have hzero : Nat.digitChar 0 = '0' := rfl
  have one {m : Nat} (hm : m < 16) : Nat.toDigits 16 m = [Nat.digitChar (m % 16)] := by
    rw [Nat.toDigits_of_lt_base hm, Nat.mod_eq_of_lt hm]
  have more {m : Nat} (hm : 16 ≤ m) : Nat.toDigits 16 m = Nat.toDigits 16 (m / 16) ++ [Nat.digitChar (m % 16)] :=
    Nat.toDigits_of_base_le (by omega) hm
  have hdiv : n / 16 / 16 = n / 256 ∧ n / 256 / 16 = n / 4096 := by omega
  by_cases h1 : n < 16
  · have hdigits : n / 16 % 16 = 0 ∧ n / 256 % 16 = 0 ∧ n / 4096 % 16 = 0 := by omega
    simp [one h1, hdigits, hzero, List.replicate]
  rw [more (by omega)]
  by_cases h2 : n < 256
  · have hdigits : n / 256 % 16 = 0 ∧ n / 4096 % 16 = 0 := by omega
    simp [one (show n / 16 < 16 by omega), hdigits, hzero, List.replicate]
  rw [more (show 16 ≤ n / 16 by omega), hdiv.1]
  by_cases h3 : n < 4096
  · have hdigits : n / 4096 % 16 = 0 := by omega
    simp [one (show n / 256 < 16 by omega), hdigits, hzero]
  rw [more (show 16 ≤ n / 256 by omega), hdiv.2, one (show n / 4096 < 16 by omega)]
  simp

theorem hex4_eq {n : Nat} (hn : n < 65536) : hex4 n = ofChar '\\' :: ofChar 'u' :: hexDigits n := by
  have hdigits := congrArg (List.map ofChar) (toDigits_hex hn)
  rw [List.map_append, List.map_replicate] at hdigits
  rw [hex4, List.length_map, List.append_assoc, hdigits]
  rfl

theorem hexDigit_digitChar : ∀ d < 16, hexDigit? (ofChar (Nat.digitChar d)) = some d := by decide

theorem hex4_hexDigits {n : Nat} (hn : n < 65536) (t : Str) : hex4? (hexDigits n ++ t) = some (n, t) := by
  have digit (m : Nat) : hexDigit? (ofChar (Nat.digitChar (m % 16))) = some (m % 16) :=
    hexDigit_digitChar _ (Nat.mod_lt _ (by omega))
  have hvalue : ((n / 4096 % 16 * 16 + n / 256 % 16) * 16 + n / 16 % 16) * 16 + n % 16 = n := by omega
  simp only [hexDigits, List.cons_append, List.nil_append, hex4?, digit, Option.bind_eq_bind, Option.bind_some, hvalue]

theorem unicodeEscape_unit {n : Nat} (hn : n < 65536) (hhigh : ¬(0xD800 ≤ n ∧ n ≤ 0xDBFF)) (t : Str) :
    unicodeEscape? (hexDigits n ++ t) = some (codePoint n, t) := by
  have hnot : ¬(0xD800 ≤ n ∧ n ≤ 0xDBFF ∧ t.take 2 = [ofChar '\\', ofChar 'u']) := fun h => hhigh ⟨h.1, h.2.1⟩
  simp only [unicodeEscape?, hex4_hexDigits hn, Option.bind_eq_bind, Option.bind_some, if_neg hnot]

theorem unicodeEscape_pair {hi lo : Nat} (hhi : 0xD800 ≤ hi ∧ hi ≤ 0xDBFF) (hlo : 0xDC00 ≤ lo ∧ lo ≤ 0xDFFF) (t : Str) :
    unicodeEscape? (hexDigits hi ++ (ofChar '\\' :: ofChar 'u' :: hexDigits lo ++ t)) =
      some (codePoint (0x10000 + (hi - 0xD800) * 0x400 + (lo - 0xDC00)), t) := by
  have hread : hex4? (hexDigits lo ++ t) = some (lo, t) := hex4_hexDigits (by omega) t
  simp only [unicodeEscape?, hex4_hexDigits (show hi < 65536 by omega), Option.bind_eq_bind, Option.bind_some,
    List.cons_append, List.take_succ_cons, List.take_zero, hhi, and_self, if_true, List.drop_succ_cons, List.drop_zero,
    hread, hlo]

theorem codePoint_val (p : CodePoint) : codePoint p.val = p := by
  simp [codePoint]

theorem scanString_escape {n : Nat} {e q : CodePoint} {t : Str} (hu : e ≠ ofChar 'u') (he : escape? e = some q) :
    scanString (n + 1) (ofChar '\\' :: e :: t) = (scanString n t).map fun r => (q :: r.1, r.2) := by
  have hquote : ofChar '\\' ≠ ofChar '"' := by decide
  rw [scanString, if_neg hquote, if_pos rfl, List.head?_cons, if_neg (by simpa using hu)]
  cases h : scanString n t <;> simp [he, h]

theorem scanString_unicode {n : Nat} {ps rest : Str} {q : CodePoint} (h : unicodeEscape? ps = some (q, rest)) :
    scanString (n + 1) (ofChar '\\' :: ofChar 'u' :: ps) = (scanString n rest).map fun r => (q :: r.1, r.2) := by
  have hquote : ofChar '\\' ≠ ofChar '"' := by decide
  rw [scanString, if_neg hquote, if_pos rfl, List.head?_cons, if_pos rfl, List.tail_cons, h]
  cases h : scanString n rest <;> simp [h]

inductive Escaped (p : CodePoint) : Str → Prop where
  | letter {e : Char} (hu : ofChar e ≠ ofChar 'u') (he : escape? (ofChar e) = some p) :
      Escaped p [ofChar '\\', ofChar e]
  | control (hp : p.val < 32) : Escaped p (hex4 p.val)
  | plain (hquote : p ≠ ofChar '"') (hslash : p ≠ ofChar '\\') (hp : ¬p.val < 32) : Escaped p [p]

theorem escaped_spec (p : CodePoint) : Escaped p (escaped false p) := by
  rw [escaped]
  by_cases hquote : p = ofChar '"'
  · rw [if_pos hquote]
    exact hquote ▸ .letter (e := '"') (by decide) (by decide)
  rw [if_neg hquote]
  by_cases hslash : p = ofChar '\\'
  · rw [if_pos hslash]
    exact hslash ▸ .letter (e := '\\') (by decide) (by decide)
  rw [if_neg hslash]
  by_cases hn : p.val = 10
  · rw [if_pos hn]
    exact .letter (e := 'n') (by decide) ((Fin.ext hn : p = 10) ▸ by decide)
  rw [if_neg hn]
  by_cases hr : p.val = 13
  · rw [if_pos hr]
    exact .letter (e := 'r') (by decide) ((Fin.ext hr : p = 13) ▸ by decide)
  rw [if_neg hr]
  by_cases ht : p.val = 9
  · rw [if_pos ht]
    exact .letter (e := 't') (by decide) ((Fin.ext ht : p = 9) ▸ by decide)
  rw [if_neg ht]
  by_cases hf : p.val = 12
  · rw [if_pos hf]
    exact .letter (e := 'f') (by decide) ((Fin.ext hf : p = 12) ▸ by decide)
  rw [if_neg hf]
  by_cases hb : p.val = 8
  · rw [if_pos hb]
    exact .letter (e := 'b') (by decide) ((Fin.ext hb : p = 8) ▸ by decide)
  rw [if_neg hb]
  by_cases hcontrol : p.val < 32
  · rw [if_pos hcontrol]
    exact .control hcontrol
  rw [if_neg hcontrol, if_pos (.inl rfl)]
  exact .plain hquote hslash hcontrol

theorem isValidChar_of_scalar {p : CodePoint} (hp : Scalar [p]) : p.val < 0xD800 ∨ 0xE000 ≤ p.val := by
  have hvalid := hp p List.mem_cons_self
  rw [toChar?, Option.isSome_dite] at hvalid
  exact hvalid.imp id fun h => h.1

inductive Spelled (p : CodePoint) : Str → Prop where
  | escaped {u : Str} (hu : Escaped p u) : Spelled p u
  | unit (hp : p.val < 0x10000) (hscalar : p.val < 0xD800 ∨ 0xE000 ≤ p.val) : Spelled p (hex4 p.val)
  | pair (hp : 0x10000 ≤ p.val) :
      Spelled p (hex4 (0xD800 + (p.val - 0x10000) / 0x400) ++ hex4 (0xDC00 + (p.val - 0x10000) % 0x400))

-- JSON has no escape for a surrogate that stands alone next to the other half of a pair.
def Readable (ascii : Bool) (s : Str) : Prop := ascii = true → Scalar s

theorem Readable.head {ascii : Bool} {p : CodePoint} {s : Str} (h : Readable ascii (p :: s)) : Readable ascii [p] :=
  fun hascii q hq => h hascii q (List.mem_singleton.mp hq ▸ List.mem_cons_self)

theorem Readable.tail {ascii : Bool} {p : CodePoint} {s : Str} (h : Readable ascii (p :: s)) : Readable ascii s :=
  fun hascii q hq => h hascii q (List.mem_cons_of_mem _ hq)

theorem escaped_true {p : CodePoint} : escaped true p = if p.val < 127 then escaped false p
    else if p.val < 0x10000 then hex4 p.val
    else hex4 (0xD800 + (p.val - 0x10000) / 0x400) ++ hex4 (0xDC00 + (p.val - 0x10000) % 0x400) := by
  by_cases hp : p.val < 127
  · rw [if_pos hp]
    simp only [escaped, hp, or_true, if_true]
  · have hquote : p ≠ ofChar '"' := fun h => hp (h ▸ by decide)
    have hslash : p ≠ ofChar '\\' := fun h => hp (h ▸ by decide)
    rw [if_neg hp, escaped, if_neg hquote, if_neg hslash, if_neg (by omega), if_neg (by omega), if_neg (by omega),
      if_neg (by omega), if_neg (by omega), if_neg (by omega), if_neg (by simp [hp])]

theorem spelled_spec {ascii : Bool} {p : CodePoint} (hp : Readable ascii [p]) : Spelled p (escaped ascii p) := by
  cases ascii with
  | false => exact .escaped (escaped_spec p)
  | true =>
      have hscalar := isValidChar_of_scalar (hp rfl)
      rw [escaped_true]
      by_cases hlow : p.val < 127
      · rw [if_pos hlow]
        exact .escaped (escaped_spec p)
      rw [if_neg hlow]
      by_cases hunit : p.val < 0x10000
      · rw [if_pos hunit]
        exact .unit hunit hscalar
      · rw [if_neg hunit]
        exact .pair (by omega)

theorem scanString_unit {p : CodePoint} (hp : p.val < 0x10000) (hscalar : p.val < 0xD800 ∨ 0xE000 ≤ p.val) (n : Nat)
    (t : Str) : scanString (n + 1) (hex4 p.val ++ t) = (scanString n t).map fun r => (p :: r.1, r.2) := by
  have hread := unicodeEscape_unit hp (by omega) t
  rw [codePoint_val] at hread
  rw [hex4_eq hp]
  exact scanString_unicode hread

theorem surrogates {v hi lo : Nat} (hv : 0x10000 ≤ v) (hlt : v < 0x110000) (hhi : hi = 0xD800 + (v - 0x10000) / 0x400)
    (hlo : lo = 0xDC00 + (v - 0x10000) % 0x400) : (0xD800 ≤ hi ∧ hi ≤ 0xDBFF) ∧ (0xDC00 ≤ lo ∧ lo ≤ 0xDFFF) ∧
      0x10000 + (hi - 0xD800) * 0x400 + (lo - 0xDC00) = v := by
  omega

theorem scanString_units {p : CodePoint} {hi lo : Nat} (hhi : hi < 65536) (hlo : lo < 65536) {n : Nat} {t : Str}
    (hread : unicodeEscape? (hexDigits hi ++ (ofChar '\\' :: ofChar 'u' :: hexDigits lo ++ t)) = some (p, t)) :
    scanString (n + 1) (hex4 hi ++ hex4 lo ++ t) = (scanString n t).map fun r => (p :: r.1, r.2) := by
  rw [hex4_eq hhi, hex4_eq hlo, List.append_assoc, List.cons_append, List.cons_append, scanString_unicode hread]

theorem scanString_pair {p : CodePoint} (hp : 0x10000 ≤ p.val) {hi lo : Nat}
    (hhi : hi = 0xD800 + (p.val - 0x10000) / 0x400) (hlo : lo = 0xDC00 + (p.val - 0x10000) % 0x400) (n : Nat) (t : Str) :
    scanString (n + 1) (hex4 hi ++ hex4 lo ++ t) = (scanString n t).map fun r => (p :: r.1, r.2) := by
  obtain ⟨hhigh, hlow, hvalue⟩ := surrogates hp p.isLt hhi hlo
  have hread := unicodeEscape_pair hhigh hlow t
  rw [hvalue, codePoint_val] at hread
  exact scanString_units (by omega) (by omega) hread

theorem Escaped.scanString {p : CodePoint} {u : Str} (hu : Escaped p u) (n : Nat) (t : Str) :
    scanString (n + 1) (u ++ t) = (scanString n t).map fun r => (p :: r.1, r.2) := by
  cases hu with
  | letter hu he => exact scanString_escape hu he
  | control hp => exact scanString_unit (by omega) (by omega) n t
  | plain hquote hslash hp =>
      rw [List.singleton_append, Json.scanString, if_neg hquote, if_neg hslash, if_neg hp]
      cases Json.scanString n t <;> rfl

theorem Spelled.scanString {p : CodePoint} {u : Str} (hu : Spelled p u) (n : Nat) (t : Str) :
    scanString (n + 1) (u ++ t) = (scanString n t).map fun r => (p :: r.1, r.2) := by
  cases hu with
  | escaped hu => exact hu.scanString n t
  | unit hp hscalar => exact scanString_unit hp hscalar n t
  | pair hp => exact scanString_pair hp rfl rfl n t

theorem length_hex4_pos (n : Nat) : 0 < (hex4 n).length := by simp [hex4, str]

theorem Spelled.length_pos {p : CodePoint} {u : Str} (hu : Spelled p u) : 0 < u.length := by
  cases hu with
  | escaped hu =>
      cases hu with
      | letter => exact Nat.succ_pos _
      | control => exact length_hex4_pos _
      | plain => exact Nat.succ_pos _
  | unit => exact length_hex4_pos _
  | pair =>
      rw [List.length_append]
      exact Nat.add_pos_left (length_hex4_pos _) _

theorem scanString_flatMap {ascii : Bool} {s : Str} (hs : Readable ascii s) (t : Str) {n : Nat} (hn : s.length < n) :
    scanString n (s.flatMap (escaped ascii) ++ ofChar '"' :: t) = some (s, t) := by
  induction s generalizing n with
  | nil =>
      obtain ⟨n, rfl⟩ := Nat.exists_eq_succ_of_ne_zero (Nat.ne_of_gt hn)
      rw [List.flatMap_nil, List.nil_append, scanString, if_pos rfl]
  | cons p s ih =>
      obtain ⟨n, rfl⟩ := Nat.exists_eq_succ_of_ne_zero (Nat.ne_of_gt (Nat.zero_lt_of_lt hn))
      rw [List.flatMap_cons, List.append_assoc, (spelled_spec hs.head).scanString, ih hs.tail (by simpa using hn)]
      rfl

theorem length_flatMap_escaped {ascii : Bool} {s : Str} (hs : Readable ascii s) :
    s.length ≤ (s.flatMap (escaped ascii)).length := by
  induction s with
  | nil => rfl
  | cons p s ih =>
      have hpos := (spelled_spec hs.head).length_pos
      have htail := ih hs.tail
      rw [List.flatMap_cons, List.length_append, List.length_cons]
      omega

theorem scanString_quoted {ascii : Bool} {s : Str} (hs : Readable ascii s) (t : Str) :
    scanString ((s.flatMap (escaped ascii) ++ ofChar '"' :: t).length + 1)
      (s.flatMap (escaped ascii) ++ ofChar '"' :: t) = some (s, t) := by
  refine scanString_flatMap hs t ?_
  have hlength := length_flatMap_escaped hs
  rw [List.length_append]
  omega

end Strings

section Integers

theorem isDigit_ofChar {c : Char} (hc : c.isDigit = true) : isDigit (ofChar c) = true := by
  have hrange : 48 ≤ c.toNat ∧ c.toNat ≤ 57 := by simpa [Char.isDigit, UInt32.le_iff_toNat_le] using hc
  simp [isDigit, ofChar, hrange]

theorem isDigit_natStr (n : Nat) : ∀ p ∈ natStr n, isDigit p = true := by
  intro p hp
  obtain ⟨c, hc, rfl⟩ := natStr_chars hp
  exact isDigit_ofChar hc

theorem decimal_natStr (n : Nat) : decimal (natStr n) = n := by
  have hfold : ∀ (cs : List Char) (init : Nat),
      (cs.map ofChar).foldl (fun n p => n * 10 + (p.val - 48)) init = Nat.ofDigitChars 10 cs init := by
    intro cs
    induction cs with
    | nil => intro init; rfl
    | cons c cs ih =>
        intro init
        rw [List.map_cons, List.foldl_cons, ih, Nat.ofDigitChars_cons, Nat.mul_comm]
        rfl
  rw [decimal, natStr, hfold, Nat.ofDigitChars_ten_toDigits]

theorem natStr_cons (n : Nat) : ∃ p ps, natStr n = p :: ps ∧ (p = ofChar '0' → ps = []) := by
  induction n using Nat.strongRecOn with
  | ind n ih =>
      rcases Nat.lt_or_ge n 10 with hlt | hge
      · refine ⟨ofChar n.digitChar, [], ?_, fun _ => rfl⟩
        rw [natStr, Nat.toDigits_of_lt_base hlt]
        rfl
      · obtain ⟨p, ps, hcons, hzero⟩ := ih (n / 10) (by omega)
        refine ⟨p, ps ++ [ofChar (n % 10).digitChar], ?_, fun hp => ?_⟩
        · rw [natStr, Nat.toDigits_of_base_le (by omega) hge, List.map_append, ← natStr, hcons]
          rfl
        · have hdec := decimal_natStr (n / 10)
          rw [hcons, hp, hzero hp] at hdec
          have : n / 10 = 0 := hdec.symm
          omega

def Ends (t : Str) : Prop := ∀ p ∈ t.head?, isDigit p = false ∧ p ≠ ofChar '.' ∧ p ≠ ofChar 'e' ∧ p ≠ ofChar 'E'

theorem takeWhile_digits {ds t : Str} (hds : ∀ p ∈ ds, isDigit p = true) (ht : Ends t) :
    (ds ++ t).takeWhile isDigit = ds ∧ (ds ++ t).dropWhile isDigit = t := by
  have htail : t.takeWhile isDigit = [] ∧ t.dropWhile isDigit = t := by
    cases t with
    | nil => exact ⟨rfl, rfl⟩
    | cons p t => simp [(ht p rfl).1]
  rw [List.takeWhile_append_of_pos hds, List.dropWhile_append_of_pos hds, htail.1, htail.2, List.append_nil]
  exact ⟨rfl, rfl⟩

theorem scanInt_natStr (n : Nat) {t : Str} (ht : Ends t) : scanInt (natStr n ++ t) = some (natStr n, t) := by
  obtain ⟨p, ps, hcons, hzero⟩ := natStr_cons n
  have hdigits := isDigit_natStr n
  rw [hcons] at hdigits ⊢
  obtain ⟨hp, hps⟩ := List.forall_mem_cons.mp hdigits
  obtain ⟨htake, hdrop⟩ := takeWhile_digits hps ht
  rw [List.cons_append, scanInt]
  split_ifs with h
  · rw [hzero h, List.nil_append]
  · rw [htake, hdrop]

theorem scanNumber_natStr (neg : Bool) (n : Nat) {t : Str} (ht : Ends t) (hlength : (natStr n).length ≤ maxDigits) :
    scanNumber neg (natStr n ++ t) = some (.int (if neg then -(n : Int) else n), t) := by
  have hfrac : scanFrac t = ([], t) := by
    cases t with
    | nil => rfl
    | cons p t => exact if_neg fun h => (ht p rfl).2.1 h.1
  have hexp : scanExp t = (none, t) := by
    cases t with
    | nil => rfl
    | cons p t => exact if_neg fun h => h.elim (ht p rfl).2.2.1 (ht p rfl).2.2.2
  simp only [scanNumber, scanInt_natStr n ht, Option.bind_eq_bind, Option.bind_some, hfrac, hexp, and_self, if_true,
    if_neg (Nat.not_lt.mpr hlength), decimal_natStr]

end Integers

section Objects

inductive Flat : Value → Prop where
  | str (s : Str) : Flat (.str s)
  | int {n : Int} (hlength : (natStr n.natAbs).length ≤ maxDigits) : Flat (.int n)

inductive FlatIn (ascii : Bool) : Value → Prop where
  | str {s : Str} (hs : Readable ascii s) : FlatIn ascii (.str s)
  | int {n : Int} (hlength : (natStr n.natAbs).length ≤ maxDigits) : FlatIn ascii (.int n)

structure Layout.Spaced (l : Layout) : Prop where
  item : ∃ ws, l.itemSep = ofChar ',' :: ws ∧ ∀ p ∈ ws, isSpace p = true
  key : ∃ ws, l.keySep = ofChar ':' :: ws ∧ ∀ p ∈ ws, isSpace p = true

theorem readable_false (s : Str) : Readable false s := nofun

theorem Flat.flatIn {v : Value} (hv : Flat v) : FlatIn false v := by
  cases hv with
  | str s => exact .str (readable_false s)
  | int hlength => exact .int hlength

theorem spaced_compact : Layout.compact.Spaced := ⟨⟨[], rfl, nofun⟩, ⟨[], rfl, nofun⟩⟩

theorem spaced_standard : Layout.standard.Spaced := by
  have hblank : ∀ p ∈ [ofChar ' '], isSpace p = true := fun p hp => by
    cases List.mem_singleton.mp hp
    rfl
  exact ⟨⟨_, rfl, hblank⟩, ⟨_, rfl, hblank⟩⟩

theorem skip_spaces {ws : Str} (hws : ∀ p ∈ ws, isSpace p = true) (s : Str) : skip (ws ++ s) = skip s :=
  List.dropWhile_append_of_pos hws

theorem skip_cons {p : CodePoint} (hp : isSpace p = false) (s : Str) : skip (p :: s) = p :: s :=
  List.dropWhile_cons_of_neg (by simp [hp])

theorem isSpace_digit {p : CodePoint} (hp : isDigit p = true) : isSpace p = false := by
  simp only [isDigit, Bool.and_eq_true, decide_eq_true_eq] at hp
  simp only [isSpace, Bool.or_eq_false_iff, decide_eq_false_iff_not]
  omega

theorem ne_of_isDigit {p : CodePoint} (hp : isDigit p = true) {c : Char} (hc : isDigit (ofChar c) = false) :
    p ≠ ofChar c := by
  rintro rfl
  exact Bool.false_ne_true (hc.symm.trans hp)

theorem scanScalar_natStr (n : Nat) {t : Str} (ht : Ends t) (hlength : (natStr n).length ≤ maxDigits) :
    scanScalar (natStr n ++ t) = some (.int n, t) := by
  have hscan := scanNumber_natStr false n ht hlength
  obtain ⟨p, ps, hcons, -⟩ := natStr_cons n
  have hp : isDigit p = true := isDigit_natStr n p (hcons ▸ List.mem_cons_self)
  rw [hcons, List.cons_append] at hscan ⊢
  have hne {c : Char} (hc : isDigit (ofChar c) = false) : p ≠ ofChar c := ne_of_isDigit hp hc
  rw [scanScalar, if_neg (hne rfl), if_neg (hne rfl), if_neg (hne rfl), if_neg (hne rfl), if_neg (hne rfl),
    if_neg (hne rfl), hscan]
  rfl

theorem scanScalar_minus (n : Nat) {t : Str} (ht : Ends t) (hlength : (natStr n).length ≤ maxDigits) :
    scanScalar (ofChar '-' :: (natStr n ++ t)) = some (.int (-n), t) := by
  have hscan := scanNumber_natStr true n ht hlength
  obtain ⟨p, ps, hcons, -⟩ := natStr_cons n
  have hp : isDigit p = true := isDigit_natStr n p (hcons ▸ List.mem_cons_self)
  have hword : word? "-Infinity" (.float (.inf true)) (ofChar '-' :: (natStr n ++ t)) = none := by
    refine if_neg fun h => ?_
    rw [hcons] at h
    exact ne_of_isDigit hp (c := 'I') rfl (List.cons.inj (List.cons.inj h).2).1
  rw [scanScalar, if_neg (by decide), if_neg (by decide), if_neg (by decide), if_neg (by decide), if_neg (by decide),
    if_pos rfl, hword, Option.orElse_none, hscan]
  rfl

theorem scanValue_scalar {n : Nat} {p : CodePoint} {ps : Str} (hquote : p ≠ ofChar '"') (hbrace : p ≠ ofChar '\x7b')
    (hbracket : p ≠ ofChar '[') : scanValue (n + 1) (p :: ps) = scanScalar (p :: ps) := by
  rw [scanValue, if_neg hquote, if_neg hbrace, if_neg hbracket]

variable {l : Layout}

theorem scanValue_flat {v : Value} (hv : FlatIn l.ascii v) (n : Nat) {t : Str} (ht : Ends t) :
    scanValue (n + 1) (dumpsWith l v ++ t) = some (v, t) := by
  cases hv with
  | @str s hs =>
      change scanValue (n + 1) (ofChar '"' :: s.flatMap (escaped l.ascii) ++ [ofChar '"'] ++ t) = _
      rw [List.append_assoc, List.cons_append, List.singleton_append, scanValue, if_pos rfl, scanString_quoted hs]
      rfl
  | @int n' hlength =>
      cases n' with
      | ofNat k =>
          have hscan := scanScalar_natStr k ht hlength
          obtain ⟨p, ps, hcons, -⟩ := natStr_cons k
          have hp : isDigit p = true := isDigit_natStr k p (hcons ▸ List.mem_cons_self)
          change scanValue (n + 1) (natStr k ++ t) = _
          rw [hcons, List.cons_append] at hscan ⊢
          rw [scanValue_scalar (ne_of_isDigit hp rfl) (ne_of_isDigit hp rfl) (ne_of_isDigit hp rfl), hscan]
          rfl
      | negSucc k =>
          change scanValue (n + 1) (ofChar '-' :: (natStr (k + 1) ++ t)) = _
          rw [scanValue_scalar (by decide) (by decide) (by decide), scanScalar_minus (k + 1) ht hlength]
          rfl

theorem skip_flat {v : Value} (hv : FlatIn l.ascii v) (t : Str) :
    skip (dumpsWith l v ++ t) = dumpsWith l v ++ t := by
  cases hv with
  | str hs => exact skip_cons (p := ofChar '"') (by decide) _
  | @int n hlength =>
      cases n with
      | ofNat k =>
          obtain ⟨p, ps, hcons, -⟩ := natStr_cons k
          have hp : isDigit p = true := isDigit_natStr k p (hcons ▸ List.mem_cons_self)
          change skip (natStr k ++ t) = natStr k ++ t
          rw [hcons]
          exact skip_cons (isSpace_digit hp) _
      | negSucc k => exact skip_cons (by decide) _

def fieldText (l : Layout) (k : Str) (v : Value) : Str := quoted l.ascii k ++ l.keySep ++ dumpsWith l v

theorem scanFields_head (hl : l.Spaced) {n : Nat} {k : Str} (hk : Readable l.ascii k) {v : Value}
    (hv : FlatIn l.ascii v) {q : CodePoint} {t : Str} (ht : Ends (q :: t)) (hq : isSpace q = false) :
    scanFields (n + 2) (fieldText l k v ++ q :: t) =
      if q = ofChar '\x7d' then some ([(k, v)], t)
      else if q = ofChar ',' then (scanFields (n + 1) (skip t)).map fun r => ((k, v) :: r.1, r.2)
      else none := by
  obtain ⟨ws, hsep, hws⟩ := hl.key
  have htext : fieldText l k v ++ q :: t =
      ofChar '"' :: (k.flatMap (escaped l.ascii) ++ ofChar '"' :: (ofChar ':' :: (ws ++ (dumpsWith l v ++ q :: t)))) := by
    simp [fieldText, quoted, hsep]
  have hcolon : skip (ofChar ':' :: (ws ++ (dumpsWith l v ++ q :: t))) =
      ofChar ':' :: (ws ++ (dumpsWith l v ++ q :: t)) := skip_cons (by decide) _
  rw [htext, scanFields, if_neg (by simp), scanString_quoted hk]
  simp only [Option.bind_eq_bind, Option.bind_some, hcolon, List.head?_cons, List.tail_cons, ne_eq, not_true_eq_false,
    if_false, skip_spaces hws, skip_flat hv, scanValue_flat hv n ht, skip_cons hq]

theorem separated_head {fields : List (Str × Value)} (hne : fields ≠ []) (sep : Str) :
    ∃ ps, separated sep (dumpFields l fields) = ofChar '"' :: ps := by
  obtain ⟨f, rest, rfl⟩ := List.exists_cons_of_ne_nil hne
  cases rest <;> exact ⟨_, rfl⟩

structure Loadable (l : Layout) (f : Str × Value) : Prop where
  key : Readable l.ascii f.1
  value : FlatIn l.ascii f.2

theorem scanFields_flat (hl : l.Spaced) (fields : List (Str × Value)) (hne : fields ≠ [])
    (hflat : ∀ f ∈ fields, Loadable l f) {n : Nat} (hn : fields.length < n) (t : Str) :
    scanFields n (separated l.itemSep (dumpFields l fields) ++ ofChar '\x7d' :: t) = some (fields, t) := by
  induction fields generalizing n with
  | nil => exact absurd rfl hne
  | cons f fields ih =>
      obtain ⟨k, v⟩ := f
      obtain ⟨n, rfl⟩ : ∃ m, n = m + 2 := ⟨n - 2, by simp only [List.length_cons] at hn; omega⟩
      obtain ⟨⟨hk, hv⟩, hrest⟩ := List.forall_mem_cons.mp hflat
      cases fields with
      | nil =>
          have hends : Ends (ofChar '\x7d' :: t) := fun p hp => by cases hp; decide
          change scanFields (n + 2) (fieldText l k v ++ ofChar '\x7d' :: t) = _
          rw [scanFields_head hl hk hv hends (by decide), if_pos rfl]
      | cons g fields =>
          obtain ⟨ws, hsep, hws⟩ := hl.item
          have hends : ∀ s, Ends (ofChar ',' :: s) := fun s p hp => by cases hp; decide
          have hcomma : ofChar ',' ≠ ofChar '\x7d' := by decide
          have htail := ih (List.cons_ne_nil _ _) hrest (n := n + 1) (by simp only [List.length_cons] at hn ⊢; omega)
          obtain ⟨ps, hps⟩ := separated_head (l := l) (List.cons_ne_nil g fields) l.itemSep
          have htext : separated l.itemSep (dumpFields l ((k, v) :: g :: fields)) ++ ofChar '\x7d' :: t =
              fieldText l k v ++ ofChar ',' ::
                (ws ++ (separated l.itemSep (dumpFields l (g :: fields)) ++ ofChar '\x7d' :: t)) := by
            have hcons : separated l.itemSep (dumpFields l ((k, v) :: g :: fields)) =
              fieldText l k v ++ l.itemSep ++ separated l.itemSep (dumpFields l (g :: fields)) := rfl
            rw [hcons, hsep]
            simp
          have hskip : skip (separated l.itemSep (dumpFields l (g :: fields)) ++ ofChar '\x7d' :: t) =
              separated l.itemSep (dumpFields l (g :: fields)) ++ ofChar '\x7d' :: t := by
            rw [hps]
            exact skip_cons (by decide) _
          rw [htext, scanFields_head hl hk hv (hends _) (by decide), if_neg hcomma, if_pos rfl, skip_spaces hws, hskip,
            htail]
          rfl

theorem length_separated (sep : Str) (parts : List Str) (hparts : ∀ x ∈ parts, x ≠ []) :
    parts.length ≤ (separated sep parts).length := by
  induction parts with
  | nil => rfl
  | cons x parts ih =>
      obtain ⟨hx, hrest⟩ := List.forall_mem_cons.mp hparts
      have hpos := List.length_pos_iff.mpr hx
      cases parts with
      | nil => exact hpos
      | cons y parts =>
          have htail := ih hrest
          simp only [separated, List.length_append, List.length_cons] at htail ⊢
          omega

theorem dumpFields_parts (fields : List (Str × Value)) :
    (dumpFields l fields).length = fields.length ∧ ∀ x ∈ dumpFields l fields, x ≠ [] := by
  induction fields with
  | nil => exact ⟨rfl, nofun⟩
  | cons f fields ih =>
      obtain ⟨k, v⟩ := f
      refine ⟨congrArg (· + 1) ih.1, fun x hx => ?_⟩
      rcases List.mem_cons.mp hx with rfl | hx
      · exact List.cons_ne_nil _ _
      · exact ih.2 x hx

theorem scanValue_fields {n : Nat} {ps : Str} (hopen : (skip ps).head? ≠ some (ofChar '\x7d')) :
    scanValue (n + 1) (ofChar '\x7b' :: ps) = (scanFields n (skip ps)).map fun r => (.obj r.1, r.2) := by
  have hquote : ofChar '\x7b' ≠ ofChar '"' := by decide
  rw [scanValue, if_neg hquote, if_pos rfl, if_neg hopen]

theorem loads_dumpsWith (hl : l.Spaced) {fields : List (Str × Value)} (hne : fields ≠ [])
    (hflat : ∀ f ∈ fields, Loadable l f) : loads (dumpsWith l (.obj fields)) = some (.obj fields) := by
  obtain ⟨hcount, hparts⟩ := dumpFields_parts (l := l) fields
  have hlength := length_separated l.itemSep _ hparts
  obtain ⟨ps, hps⟩ := separated_head (l := l) hne l.itemSep
  generalize hbody : separated l.itemSep (dumpFields l fields) ++ [ofChar '\x7d'] = body
  have htext : dumpsWith l (.obj fields) = ofChar '\x7b' :: body := hbody ▸ rfl
  have hhead : body = ofChar '"' :: (ps ++ [ofChar '\x7d']) := by rw [← hbody, hps]; rfl
  have hspace : skip body = body := by
    rw [hhead]
    exact skip_cons (by decide) _
  have hopen : (skip body).head? ≠ some (ofChar '\x7d') := by
    rw [hspace, hhead, List.head?_cons, ne_eq, Option.some.injEq]
    decide
  have hfuel : fields.length < 2 * (ofChar '\x7b' :: body).length + 1 := by
    rw [← hbody, List.length_cons, List.length_append]
    omega
  have hscan : scanValue (2 * (ofChar '\x7b' :: body).length + 2) (ofChar '\x7b' :: body) =
      some (.obj fields, []) := by
    rw [scanValue_fields hopen, hspace, ← hbody, scanFields_flat hl fields hne hflat (hbody ▸ hfuel) []]
    rfl
  rw [loads, htext, skip_cons (by decide), hscan]
  rfl

theorem loads_dumps_flat {fields : List (Str × Value)} (hne : fields ≠ []) (hflat : ∀ f ∈ fields, Flat f.2) :
    loads (dumpsWith .compact (.obj fields)) = some (.obj fields) :=
  loads_dumpsWith spaced_compact hne fun f hf => ⟨readable_false f.1, (hflat f hf).flatIn⟩

theorem scalar_map (cs : List Char) : Scalar (cs.map ofChar) := by
  intro p hp
  obtain ⟨c, -, rfl⟩ := List.mem_map.mp hp
  rw [toChar?_ofChar]
  rfl

theorem scalar_hex4 (n : Nat) : Scalar (hex4 n) := by
  have hzeros : Scalar (List.replicate (4 - ((Nat.toDigits 16 n).map ofChar).length) (ofChar '0')) := fun p hp =>
    scalar_map ['0'] p (List.mem_singleton.mpr (List.mem_replicate.mp hp).2)
  exact ((scalar_str "\\u").append hzeros).append (scalar_map _)

theorem Escaped.scalar {p : CodePoint} {u : Str} (hu : Escaped p u) (hp : Scalar [p]) : Scalar u := by
  cases hu with
  | @letter e => exact scalar_map ['\\', e]
  | control => exact scalar_hex4 _
  | plain => exact hp

theorem Spelled.scalar {p : CodePoint} {u : Str} (hu : Spelled p u) (hp : Scalar [p]) : Scalar u := by
  cases hu with
  | escaped hu => exact hu.scalar hp
  | unit => exact scalar_hex4 _
  | pair => exact (scalar_hex4 _).append (scalar_hex4 _)

theorem scalar_quoted {ascii : Bool} {s : Str} (hs : Scalar s) : Scalar (quoted ascii s) := by
  have hquote : Scalar [ofChar '"'] := scalar_str "\""
  have hbody : Scalar (s.flatMap (escaped ascii)) := fun q hq => by
    obtain ⟨p, hp, hq⟩ := List.mem_flatMap.mp hq
    have hone : Scalar [p] := fun r hr => List.mem_singleton.mp hr ▸ hs p hp
    exact (spelled_spec fun _ => hone).scalar hone q hq
  exact (hquote.append hbody).append hquote

theorem scalar_separated {sep : Str} (hsep : Scalar sep) {parts : List Str} (hparts : ∀ x ∈ parts, Scalar x) :
    Scalar (separated sep parts) := by
  induction parts with
  | nil => exact fun p hp => absurd hp List.not_mem_nil
  | cons x parts ih =>
      obtain ⟨hx, hrest⟩ := List.forall_mem_cons.mp hparts
      cases parts with
      | nil => exact hx
      | cons y parts => exact (hx.append hsep).append (ih hrest)

theorem scalar_dumpsWith (hitem : Scalar l.itemSep) (hkey : Scalar l.keySep) {fields : List (Str × Value)}
    (hfields : ∀ f ∈ fields, Scalar f.1 ∧ Scalar (dumpsWith l f.2)) : Scalar (dumpsWith l (.obj fields)) := by
  have hparts : ∀ x ∈ dumpFields l fields, Scalar x := by
    induction fields with
    | nil => exact nofun
    | cons f fields ih =>
        obtain ⟨k, v⟩ := f
        obtain ⟨⟨hk, hv⟩, hrest⟩ := List.forall_mem_cons.mp hfields
        intro x hx
        rcases List.mem_cons.mp hx with rfl | hx
        · exact ((scalar_quoted hk).append hkey).append hv
        · exact ih hrest x hx
  have hopen : Scalar [ofChar '\x7b'] := scalar_str "\x7b"
  exact (hopen.append (scalar_separated hitem hparts)).append (scalar_str "\x7d")

theorem scalar_dumps {fields : List (Str × Value)}
    (hfields : ∀ f ∈ fields, Scalar f.1 ∧ Scalar (dumpsWith .compact f.2)) :
    Scalar (dumpsWith .compact (.obj fields)) :=
  scalar_dumpsWith (scalar_str ",") (scalar_str ":") hfields

end Objects

end Json
