import JdRelay.Base.Json

-- bytes.decode with the error handler "surrogatepass", and what json.loads makes of bytes.
namespace Text.Codecs
open Json

inductive ByteOrder where
  | little | big

inductive Encoding where
  | utf8
  | utf8Sig
  | utf16
  | utf16le
  | utf16be
  | utf32
  | utf32le
  | utf32be
  deriving DecidableEq

section Utf8

def surrogate? : Bytes → Option (CodePoint × Bytes)
  | 0xED :: b :: c :: rest =>
      if 0xA0 ≤ b ∧ b ≤ 0xBF ∧ 0x80 ≤ c ∧ c ≤ 0xBF then
        some (codePoint (0xD000 + (b.toNat - 0x80) * 64 + (c.toNat - 0x80)), rest)
      else none
  | _ => none

def char? (b : Bytes) : Option (CodePoint × Bytes) :=
  [1, 2, 3, 4].findSome? fun n =>
    match decodeUtf8 (b.take n) with
    | some [p] => some (p, b.drop n)
    | _ => none

def passLoop : Nat → Bytes → Option Str
  | _, [] => some []
  | 0, _ :: _ => none
  | n + 1, b => do
      let (p, rest) ← (char? b).orElse fun _ => surrogate? b
      let s ← passLoop n rest
      some (p :: s)

def decodeUtf8Pass (b : Bytes) : Option Str := (decodeUtf8 b).orElse fun _ => passLoop b.length b

end Utf8

section Utf16

def unit16 (a b : UInt8) : ByteOrder → Nat
  | .little => b.toNat * 256 + a.toNat
  | .big => a.toNat * 256 + b.toNat

def units (order : ByteOrder) : Bytes → Option (List Nat)
  | [] => some []
  | a :: b :: rest => (units order rest).map (unit16 a b order :: ·)
  | [_] => none

def pairs : List Nat → Str
  | [] => []
  | [u] => [codePoint u]
  | u :: v :: us =>
      if (0xD800 ≤ u ∧ u ≤ 0xDBFF) ∧ 0xDC00 ≤ v ∧ v ≤ 0xDFFF then
        codePoint (0x10000 + (u - 0xD800) * 0x400 + (v - 0xDC00)) :: pairs us
      else codePoint u :: pairs (v :: us)

def decodeUtf16 (order : ByteOrder) (b : Bytes) : Option Str := (units order b).map pairs

def decodeUtf32 (order : ByteOrder) : Bytes → Option Str
  | [] => some []
  | a :: b :: c :: d :: rest =>
      let n := match order with
        | .little => unit16 c d .little * 65536 + unit16 a b .little
        | .big => unit16 a b .big * 65536 + unit16 c d .big
      if n < 0x110000 then (decodeUtf32 order rest).map (codePoint n :: ·) else none
  | _ => none

end Utf16

-- A byte order mark decides, else the zero bytes among the first four.
def detectEncoding (b : Bytes) : Encoding :=
  if [0x00, 0x00, 0xFE, 0xFF] <+: b ∨ [0xFF, 0xFE, 0x00, 0x00] <+: b then .utf32
  else if [0xFE, 0xFF] <+: b ∨ [0xFF, 0xFE] <+: b then .utf16
  else if [0xEF, 0xBB, 0xBF] <+: b then .utf8Sig
  else
    match b with
    | b₀ :: b₁ :: b₂ :: b₃ :: _ =>
        if b₀ = 0 then if b₁ = 0 then .utf32be else .utf16be
        else if b₁ = 0 then if b₂ = 0 ∧ b₃ = 0 then .utf32le else .utf16le
        else .utf8
    | [b₀, b₁] => if b₀ = 0 then .utf16be else if b₁ = 0 then .utf16le else .utf8
    | _ => .utf8

def decode (b : Bytes) : Encoding → Option Str
  | .utf8 => decodeUtf8Pass b
  | .utf8Sig => decodeUtf8Pass (b.drop 3)
  | .utf16 => decodeUtf16 (if b.head? = some 0xFE then .big else .little) (b.drop 2)
  | .utf16le => decodeUtf16 .little b
  | .utf16be => decodeUtf16 .big b
  | .utf32 => decodeUtf32 (if b.head? = some 0x00 then .big else .little) (b.drop 4)
  | .utf32le => decodeUtf32 .little b
  | .utf32be => decodeUtf32 .big b

def loadsBytes (b : Bytes) : Option Value := (decode b (detectEncoding b)).bind loads

theorem decodeUtf8Pass_encode {s : Str} {b : Bytes} (h : encodeUtf8 s = some b) : decodeUtf8Pass b = some s := by
  rw [decodeUtf8Pass, decode_encode h]
  rfl

theorem detectEncoding_ascii {b₀ b₁ : UInt8} (h₀ : b₀ < 0x80) (hne₀ : b₀ ≠ 0) (hne₁ : b₁ ≠ 0) (rest : Bytes) :
    detectEncoding (b₀ :: b₁ :: rest) = .utf8 := by
  have hmark : ∀ {m : UInt8}, 0x80 ≤ m → m ≠ b₀ := by
    rintro m hm rfl
    exact absurd h₀ (UInt8.not_lt.mpr hm)
  have hfe : (0xFE : UInt8) ≠ b₀ := hmark (by decide)
  have hff : (0xFF : UInt8) ≠ b₀ := hmark (by decide)
  have hef : (0xEF : UInt8) ≠ b₀ := hmark (by decide)
  simp only [detectEncoding, List.cons_prefix_cons, hfe, hff, hef, Ne.symm hne₀, false_and, or_self, if_false]
  split
  · rename_i heq
    cases heq
    simp [hne₀, hne₁]
  · rename_i heq
    cases heq
    simp [hne₀, hne₁]
  · rfl

theorem encodeUtf8_ascii {p : CodePoint} (hp : p.val < 128) {s : Str} {b : Bytes} (h : encodeUtf8 (p :: s) = some b) :
    ∃ rest, encodeUtf8 s = some rest ∧ b = UInt8.ofNat p.val :: rest := by
  have hchar : ∀ n (hn : n < 128), encodeUtf8 [⟨n, Nat.lt_trans hn (by decide)⟩] = some [UInt8.ofNat n] := by
    decide
  obtain ⟨first, rest, hfirst, hrest, rfl⟩ := encodeUtf8_append.mp (show encodeUtf8 ([p] ++ s) = some b from h)
  cases hfirst.symm.trans (hchar p.val hp)
  exact ⟨rest, hrest, rfl⟩

section Objects

theorem word?_value {w : String} {v v' : Value} {s rest : Str} (h : word? w v s = some (v', rest)) : v' = v := by
  unfold word? at h
  split_ifs at h
  cases h
  rfl

theorem scanNumber_not_obj {neg : Bool} {s rest : Str} {fields : List (Str × Value)} :
    scanNumber neg s ≠ some (.obj fields, rest) := by
  intro h
  simp only [scanNumber, Option.bind_eq_bind, Option.bind_eq_some_iff] at h
  obtain ⟨⟨ds, tail⟩, -, h⟩ := h
  split_ifs at h <;> cases h

theorem scanScalar_not_obj {s rest : Str} {fields : List (Str × Value)} :
    scanScalar s ≠ some (.obj fields, rest) := by
  intro h
  cases s with
  | nil => cases h
  | cons p ps =>
      simp only [scanScalar] at h
      split_ifs at h
      · cases word?_value h
      · cases word?_value h
      · cases word?_value h
      · cases word?_value h
      · cases word?_value h
      · cases hword : word? "-Infinity" (.float (.inf true)) (p :: ps) with
        | none =>
            rw [hword] at h
            exact scanNumber_not_obj h
        | some found =>
            rw [hword] at h
            cases h
            cases word?_value hword
      · exact scanNumber_not_obj h

theorem scanValue_obj {n : Nat} {p : CodePoint} {ps rest : Str} {fields : List (Str × Value)}
    (h : scanValue n (p :: ps) = some (.obj fields, rest)) :
    p = ofChar '{' ∧ ((skip ps).head? = some (ofChar '}') ∨ (skip ps).head? = some (ofChar '"')) := by
  cases n with
  | zero => cases h
  | succ n =>
      rw [scanValue] at h
      split_ifs at h with hquote hbrace hclose hbracket hempty
      · obtain ⟨_, -, h⟩ := Option.map_eq_some_iff.mp h
        cases h
      · exact ⟨hbrace, .inl hclose⟩
      · refine ⟨hbrace, .inr ?_⟩
        obtain ⟨_, hfields, -⟩ := Option.map_eq_some_iff.mp h
        cases n with
        | zero => cases hfields
        | succ n =>
            cases hskip : skip ps with
            | nil =>
                rw [hskip] at hfields
                cases hfields
            | cons q qs =>
                rw [hskip, scanFields] at hfields
                by_cases hq : q = ofChar '"'
                · rw [hq, List.head?_cons]
                · simp [hq] at hfields
      · cases h
      · obtain ⟨_, -, h⟩ := Option.map_eq_some_iff.mp h
        cases h
      · exact absurd h scanScalar_not_obj

def Plain (p : CodePoint) : Prop := 0 < p.val ∧ p.val < 128

instance (p : CodePoint) : Decidable (Plain p) := inferInstanceAs (Decidable (_ ∧ _))

theorem plain_space {p : CodePoint} (h : isSpace p = true) : Plain p := by
  simp only [isSpace, Bool.or_eq_true, decide_eq_true_eq] at h
  rcases h with ((h | h) | h) | h <;> exact ⟨by omega, by omega⟩

theorem plain_head {s : Str} {c : Char} (hc : Plain (ofChar c)) (h : (skip s).head? = some (ofChar c)) :
    ∃ p ps, s = p :: ps ∧ Plain p ∧ (p = ofChar c ∨ (skip ps).head? = some (ofChar c)) := by
  cases s with
  | nil => cases h
  | cons p ps =>
      by_cases hspace : isSpace p = true
      · refine ⟨p, ps, rfl, plain_space hspace, .inr ?_⟩
        rwa [skip, List.dropWhile_cons_of_pos hspace] at h
      · rw [skip, List.dropWhile_cons_of_neg hspace, List.head?_cons, Option.some.injEq] at h
        subst h
        exact ⟨_, ps, rfl, hc, .inl rfl⟩

theorem loads_obj {s : Str} {fields : List (Str × Value)} (h : loads s = some (.obj fields)) :
    ∃ p q rest, s = p :: q :: rest ∧ Plain p ∧ Plain q := by
  simp only [loads, Option.bind_eq_bind, Option.bind_eq_some_iff, Prod.exists] at h
  obtain ⟨v, rest, hscan, h⟩ := h
  split_ifs at h
  cases h
  cases hskip : skip s with
  | nil =>
      rw [hskip] at hscan
      cases hscan
  | cons b bs =>
      rw [hskip] at hscan
      obtain ⟨rfl, hinner⟩ := scanValue_obj hscan
      have hopen : (skip s).head? = some (ofChar '{') := by rw [hskip, List.head?_cons]
      obtain ⟨p, ps, rfl, hp, hnext⟩ := plain_head (by decide) hopen
      by_cases hspace : isSpace p = true
      · have hlater : (skip ps).head? = some (ofChar '{') := by
          rwa [skip, List.dropWhile_cons_of_pos hspace] at hopen
        obtain ⟨q, qs, rfl, hq, -⟩ := plain_head (by decide) hlater
        exact ⟨p, q, qs, rfl, hp, hq⟩
      · rw [skip, List.dropWhile_cons_of_neg hspace, List.cons.injEq] at hskip
        obtain ⟨rfl, rfl⟩ := hskip
        rcases hinner with hinner | hinner <;>
          obtain ⟨q, qs, rfl, hq, -⟩ := plain_head (by decide) hinner <;>
          exact ⟨_, q, qs, rfl, hp, hq⟩

theorem loadsBytes_encode {s : Str} {b : Bytes} {fields : List (Str × Value)} (hb : encodeUtf8 s = some b)
    (h : loads s = some (.obj fields)) : loadsBytes b = some (.obj fields) := by
  obtain ⟨p, q, rest, rfl, hp, hq⟩ := loads_obj h
  obtain ⟨tail, htail, rfl⟩ := encodeUtf8_ascii hp.2 hb
  obtain ⟨last, -, rfl⟩ := encodeUtf8_ascii hq.2 htail
  have hbyte : ∀ {p : CodePoint}, Plain p → UInt8.ofNat p.val < 0x80 ∧ UInt8.ofNat p.val ≠ 0 := fun {p} hp => by
    have hvalue : (UInt8.ofNat p.val).toNat = p.val := UInt8.toNat_ofNat_of_lt' (hp.2.trans (by decide))
    refine ⟨UInt8.lt_iff_toNat_lt.mpr ?_, fun h => ?_⟩
    · rw [hvalue]
      exact hp.2
    · rw [h] at hvalue
      exact absurd hvalue hp.1.ne
  obtain ⟨hascii, hne⟩ := hbyte hp
  rw [loadsBytes, detectEncoding_ascii hascii hne (hbyte hq).2, decode, decodeUtf8Pass_encode hb, Option.bind_some, h]

end Objects

end Text.Codecs
