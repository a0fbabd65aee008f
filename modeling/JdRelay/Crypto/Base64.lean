import JdRelay.Base.Base64
import JdRelay.Base.Number

namespace Crypto
open Text Base64

def newline : CodePoint := ofChar '\n'

def b64Encode (data : Bytes) : Str := join newline (lines 64 (encode data)) ++ [newline]

def isAscii (s : Str) : Bool := s.all fun p => p.val < 128

def kept (p : CodePoint) : Bool := p ≠ newline && p ≠ ofChar '\r' && p ≠ ofChar ' '

-- base64.b64decode refuses a str that is not ASCII.
def b64Decode (encoded : Str) : Option Bytes :=
  let cleaned := encoded.filter kept
  if isAscii cleaned then decode cleaned else none

def hexByte (b : UInt8) : Str :=
  [Nat.digitChar (b.toNat / 16), Nat.digitChar (b.toNat % 16)].map ofChar

def hexEncode (data : Bytes) : Str := data.flatMap hexByte

-- uuid4 sets the version and variant bits of 16 random bytes.
def uuidBytes (random : Bytes) : Bytes :=
  random.mapIdx fun i b => if i = 6 then (b &&& 0x0F) ||| 0x40 else if i = 8 then (b &&& 0x3F) ||| 0x80 else b

def generateUuid (random : Bytes) : Str :=
  let rb := uuidBytes random
  join (ofChar '-') [hexEncode (rb.take 4), hexEncode ((rb.drop 4).take 2), hexEncode ((rb.drop 6).take 2),
    hexEncode ((rb.drop 8).take 2), hexEncode (rb.drop 10)]

theorem filter_join {A : Type} {p : A → Bool} {sep : A} (hsep : p sep = false) (xs : List (List A)) :
    (join sep xs).filter p = xs.flatten.filter p := by
  cases xs with
  | nil => rfl
  | cons x xs =>
      induction xs generalizing x with
      | nil => simp [join, List.intercalate]
      | cons y ys ih => simp [join_cons_cons, hsep, ih y]

theorem kept_digit : ∀ i : Fin 64, kept (digit i) = true ∧ (digit i).val < 128 := by decide

theorem kept_encode {data : Bytes} {p : CodePoint} (h : p ∈ encode data) :
    kept p = true ∧ p.val < 128 := by
  rcases mem_encode h with rfl | ⟨i, rfl⟩
  · decide
  · exact kept_digit i

theorem filter_kept_encode (data : Bytes) : (b64Encode data).filter kept = encode data := by
  rw [b64Encode, List.filter_append, filter_join (by decide), flatten_lines (by omega),
    List.filter_eq_self.mpr fun p hp => (kept_encode hp).1]
  simp [show kept newline = false by decide]

theorem b64Decode_b64Encode (data : Bytes) : b64Decode (b64Encode data) = some data := by
  have hascii : isAscii (encode data) = true :=
    List.all_eq_true.mpr fun p hp => decide_eq_true (kept_encode hp).2
  simp only [b64Decode, filter_kept_encode, hascii, if_true, Base64.decode_encode]

theorem b64Encode_injective {x y : Bytes} (h : b64Encode x = b64Encode y) : x = y := by
  have hx := b64Decode_b64Encode x
  rw [h, b64Decode_b64Encode] at hx
  exact (Option.some.inj hx).symm

def bar : CodePoint := ofChar '|'

theorem notMem_b64Encode {c : CodePoint} (hline : c ≠ newline) (hpad : c ≠ pad) (hdigit : ∀ i, c ≠ digit i)
    (data : Bytes) : c ∉ b64Encode data := by
  intro h
  rcases List.mem_append.mp h with h | h
  · rcases mem_join h with h | ⟨x, hx, hm⟩
    · exact hline h
    · have hmem : c ∈ (lines 64 (encode data)).flatten := List.mem_flatten.mpr ⟨x, hx, hm⟩
      rw [flatten_lines (by omega)] at hmem
      exact not_mem_encode hpad hdigit hmem
  · exact hline (List.mem_singleton.mp h)

theorem bar_notMem_b64Encode (data : Bytes) : bar ∉ b64Encode data :=
  notMem_b64Encode (by decide) (by decide) (by decide) data

theorem notMem_hexEncode {c : CodePoint} (hhex : ∀ n < 16, c ≠ ofChar (Nat.digitChar n)) (data : Bytes) :
    c ∉ hexEncode data := by
  intro h
  obtain ⟨b, _, hb⟩ := List.mem_flatMap.mp h
  have hlt := b.toNat_lt
  simp only [hexByte, List.map_cons, List.map_nil, List.mem_cons, List.not_mem_nil, or_false] at hb
  rcases hb with hb | hb
  · exact hhex _ (by omega) hb
  · exact hhex _ (by omega) hb

theorem notMem_generateUuid {c : CodePoint} (hdash : c ≠ ofChar '-') (hhex : ∀ n < 16, c ≠ ofChar (Nat.digitChar n))
    (random : Bytes) : c ∉ generateUuid random := by
  intro h
  rcases mem_join h with h | ⟨x, hx, hm⟩
  · exact hdash h
  · simp only [List.mem_cons, List.not_mem_nil, or_false] at hx
    rcases hx with rfl | rfl | rfl | rfl | rfl <;> exact notMem_hexEncode hhex _ hm

theorem length_hexEncode (data : Bytes) : (hexEncode data).length = 2 * data.length := by
  induction data with
  | nil => rfl
  | cons b data ih =>
      rw [hexEncode, List.flatMap_cons, List.length_append, ← hexEncode, ih, hexByte, List.length_map, List.length_cons]
      simp only [List.length_cons, List.length_nil]
      omega

theorem length_generateUuid {random : Bytes} (h : random.length = 16) : (generateUuid random).length = 36 := by
  have hbytes : (uuidBytes random).length = 16 := by rw [uuidBytes, List.length_mapIdx, h]
  simp only [generateUuid, join_cons_cons, join_singleton, List.length_append, List.length_cons, length_hexEncode,
    List.length_take, List.length_drop, hbytes]
  decide

theorem bar_notMem_generateUuid (random : Bytes) : bar ∉ generateUuid random :=
  notMem_generateUuid (by decide) (by decide) random

theorem bar_notMem_intStr (n : Int) : bar ∉ Number.intStr n := fun h =>
  Number.not_intChar (by decide) (by decide) (Number.intStr_chars h)

end Crypto
