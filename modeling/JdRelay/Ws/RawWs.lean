import JdRelay.Base.Python

namespace Ws.RawWs
open Text Python

inductive Opcode where
  | text | binary | close | ping | pong
  deriving DecidableEq

def Opcode.value : Opcode → UInt8
  | .text => 0x1
  | .binary => 0x2
  | .close => 0x8
  | .ping => 0x9
  | .pong => 0xA

def Opcode.ofValue (value : UInt8) : Except Error Opcode :=
  if value = 0x1 then .ok .text
  else if value = 0x2 then .ok .binary
  else if value = 0x8 then .ok .close
  else if value = 0x9 then .ok .ping
  else if value = 0xA then .ok .pong
  else .error .valueError

def finBit : UInt8 := 0x80
def maskBit : UInt8 := 0x80

section Bytes

-- struct.pack("!H" / "!Q", n) and struct.unpack.
def pack : Nat → Nat → Bytes
  | 0, _ => []
  | k + 1, n => UInt8.ofNat (n / 256 ^ k) :: pack k n

def unpack : Bytes → Nat
  | [] => 0
  | b :: bs => b.toNat * 256 ^ bs.length + unpack bs

def slice (data : Bytes) (i j : Nat) : Bytes := (data.drop i).take (j - i)

def unmask (key payload : Bytes) : Bytes := payload.mapIdx fun i b => b ^^^ key.getD (i % 4) 0

@[simp] theorem length_pack (k n : Nat) : (pack k n).length = k := by
  induction k with
  | zero => rfl
  | succ k ih => simp [pack, ih]

theorem unpack_pack (k n : Nat) : unpack (pack k n) = n % 256 ^ k := by
  induction k with
  | zero => simp [pack, unpack, Nat.mod_one]
  | succ k ih =>
      have byte : (UInt8.ofNat (n / 256 ^ k)).toNat = n / 256 ^ k % 256 := UInt8.toNat_ofNat'
      rw [pack, unpack, length_pack, ih, byte, Nat.mod_pow_succ, Nat.mul_comm, Nat.add_comm]

@[simp] theorem length_unmask (key payload : Bytes) : (unmask key payload).length = payload.length := by
  simp [unmask]

theorem unmask_unmask (key payload : Bytes) : unmask key (unmask key payload) = payload := by
  refine List.ext_getElem (by simp) fun i _ _ => ?_
  simp only [unmask, List.getElem_mapIdx, UInt8.xor_assoc, UInt8.xor_self, UInt8.xor_zero]

theorem slice_whole {data whole : Bytes} (h : data <+: whole) {i j : Nat} (hj : j ≤ data.length) :
    slice data i j = slice whole i j := by
  obtain ⟨rest, rfl⟩ := h
  by_cases hi : i ≤ data.length
  · rw [slice, slice, List.drop_append_of_le_length hi, List.take_append_of_le_length]
    rw [List.length_drop]
    omega
  · have hzero : j - i = 0 := by omega
    simp [slice, hzero]

theorem slice_middle {data pre middle post : Bytes} {i j : Nat} (h : data <+: pre ++ (middle ++ post))
    (hi : i = pre.length) (hj : j = i + middle.length) (hlen : j ≤ data.length) :
    slice data i j = middle := by
  rw [slice_whole h hlen, hj, hi]
  simp [slice]

end Bytes

def encodeFrame (payload : Bytes) (opcode : Opcode) : Bytes :=
  let length := payload.length
  (finBit ||| opcode.value) ::
    (if length < 126 then [UInt8.ofNat length]
     else if length < 65536 then 126 :: pack 2 length
     else 127 :: pack 8 length) ++ payload

def lengthAndPos (data : Bytes) (length : Nat) : Option (Nat × Nat) :=
  if length = 126 then
    if data.length < 4 then none else some (unpack (slice data 2 4), 4)
  else if length = 127 then
    if data.length < 10 then none else some (unpack (slice data 2 10), 10)
  else some (length, 2)

def maskKeyAndPos (data : Bytes) (masked : Bool) (pos : Nat) : Option (Option Bytes × Nat) :=
  if masked then
    if data.length < pos + 4 then none else some (some (slice data pos (pos + 4)), pos + 4)
  else some (none, pos)

def decodeFrame (data : Bytes) : Except Error (Option (Opcode × Bytes)) :=
  match data with
  | firstByte :: secondByte :: _ => do
      let opcode ← Opcode.ofValue (firstByte &&& 0x0F)
      .ok do
        let masked := secondByte &&& maskBit != 0
        let (length, pos) ← lengthAndPos data (secondByte &&& 0x7F).toNat
        let (maskKey, pos) ← maskKeyAndPos data masked pos
        if data.length < pos + length then none
        else
          let payload := slice data pos (pos + length)
          match maskKey with
          | some key => some (opcode, unmask key payload)
          | none => some (opcode, payload)
  | _ => .ok none

inductive LengthForm where
  | short | medium | long
  deriving DecidableEq

namespace LengthForm

def bound : LengthForm → Nat
  | short => 126
  | medium => 65536
  | long => 2 ^ 64

def width : LengthForm → Nat
  | short => 0
  | medium => 2
  | long => 8

def code : LengthForm → Nat → UInt8
  | short, n => UInt8.ofNat n
  | medium, _ => 126
  | long, _ => 127

end LengthForm

abbrev MaskKey := {key : Bytes // key.length = 4}

structure Frame where
  opcode : Opcode
  maskKey : Option MaskKey
  payload : Bytes
  form : LengthForm
  fits : payload.length < form.bound

namespace Frame

variable (f : Frame)

def secondByte : UInt8 :=
  (if f.maskKey.isSome then maskBit else 0) ||| f.form.code f.payload.length

def lengthBytes : Bytes := pack f.form.width f.payload.length

def keyBytes : Bytes := (f.maskKey.map (·.val)).getD []

def body : Bytes :=
  match f.maskKey with
  | some key => unmask key.val f.payload
  | none => f.payload

def wire : Bytes :=
  [finBit ||| f.opcode.value, f.secondByte] ++ (f.lengthBytes ++ (f.keyBytes ++ f.body))

theorem length_body : f.body.length = f.payload.length := by
  unfold body
  split
  · exact length_unmask _ _
  · rfl

theorem length_wire : f.wire.length = 2 + f.form.width + f.keyBytes.length + f.payload.length := by
  simp only [wire, lengthBytes, List.length_append, List.length_cons, List.length_nil, length_pack, length_body]
  omega

theorem wire_ne_nil : f.wire ≠ [] := by simp [wire]

theorem ofValue_first (opcode : Opcode) :
    Opcode.ofValue ((finBit ||| opcode.value) &&& 0x0F) = .ok opcode := by
  cases opcode <;> rfl

theorem code_bits (form : LengthForm) {n : Nat} (hn : n < form.bound) (masked : Bool) :
    (((if masked then maskBit else 0) ||| form.code n) &&& maskBit != 0) = masked ∧
      ((if masked then maskBit else 0) ||| form.code n) &&& 0x7F = form.code n := by
  have bits : ∀ m < 128, ∀ b : Bool,
      (((if b then maskBit else 0) ||| UInt8.ofNat m) &&& maskBit != 0) = b ∧
        ((if b then maskBit else 0) ||| UInt8.ofNat m) &&& 0x7F = UInt8.ofNat m := by
    decide
  cases form with
  | short => exact bits n (by simp only [LengthForm.bound] at hn; omega) masked
  | medium => exact bits 126 (by decide) masked
  | long => exact bits 127 (by decide) masked

theorem unpack_lengthBytes (h : f.form ≠ .short) : unpack f.lengthBytes = f.payload.length := by
  rw [lengthBytes, unpack_pack]
  have hfits := f.fits
  cases hform : f.form with
  | short => exact absurd hform h
  | medium => rw [hform] at hfits; exact Nat.mod_eq_of_lt hfits
  | long => rw [hform] at hfits; exact Nat.mod_eq_of_lt (by simpa [LengthForm.width, LengthForm.bound] using hfits)

variable {f} {data suffix : Bytes}

theorem slice_lengthBytes (h : data <+: f.wire ++ suffix) (hlen : 2 + f.form.width ≤ data.length) :
    slice data 2 (2 + f.form.width) = f.lengthBytes := by
  have hwidth : f.lengthBytes.length = f.form.width := length_pack _ _
  rw [wire, List.append_assoc, List.append_assoc] at h
  exact slice_middle h rfl (by rw [hwidth]) hlen

theorem slice_keyBytes (h : data <+: f.wire ++ suffix)
    (hlen : 2 + f.form.width + f.keyBytes.length ≤ data.length) :
    slice data (2 + f.form.width) (2 + f.form.width + f.keyBytes.length) = f.keyBytes := by
  have hwire : f.wire ++ suffix = ([finBit ||| f.opcode.value, f.secondByte] ++ f.lengthBytes) ++
      (f.keyBytes ++ (f.body ++ suffix)) := by
    simp only [wire, List.append_assoc]
  rw [hwire] at h
  refine slice_middle h ?_ rfl hlen
  simp only [List.length_append, lengthBytes, length_pack, List.length_cons, List.length_nil]

theorem slice_body (h : data <+: f.wire ++ suffix) (hlen : f.wire.length ≤ data.length) :
    slice data (2 + f.form.width + f.keyBytes.length)
      (2 + f.form.width + f.keyBytes.length + f.payload.length) = f.body := by
  have hwire : f.wire ++ suffix = ([finBit ||| f.opcode.value, f.secondByte] ++ f.lengthBytes ++ f.keyBytes) ++
      (f.body ++ suffix) := by
    simp only [wire, List.append_assoc]
  rw [hwire] at h
  rw [length_wire] at hlen
  refine slice_middle h ?_ (by rw [length_body]) hlen
  simp only [List.length_append, lengthBytes, length_pack, List.length_cons, List.length_nil]

theorem lengthAndPos_wire (h : data <+: f.wire ++ suffix) (htwo : 2 ≤ data.length) :
    lengthAndPos data (f.form.code f.payload.length).toNat =
      if data.length < 2 + f.form.width then none else some (f.payload.length, 2 + f.form.width) := by
  have hread : f.form ≠ .short → 2 + f.form.width ≤ data.length →
      unpack (slice data 2 (2 + f.form.width)) = f.payload.length := fun hform hlen => by
    rw [slice_lengthBytes h hlen, f.unpack_lengthBytes hform]
  have hfits := f.fits
  cases hform : f.form with
  | short =>
      rw [hform, LengthForm.bound] at hfits
      have hcode : (LengthForm.short.code f.payload.length).toNat = f.payload.length :=
        UInt8.toNat_ofNat_of_lt' (by simp only [UInt8.size]; omega)
      rw [hcode, lengthAndPos, if_neg (by omega), if_neg (by omega), LengthForm.width, if_neg (by omega)]
  | medium =>
      rw [hform] at hread
      change (if data.length < 4 then none else some (unpack (slice data 2 4), 4)) =
        if data.length < 4 then none else some (f.payload.length, 4)
      split
      · rfl
      · rw [show unpack (slice data 2 4) = _ from hread (by decide) (by simp only [LengthForm.width]; omega)]
  | long =>
      rw [hform] at hread
      change (if data.length < 10 then none else some (unpack (slice data 2 10), 10)) =
        if data.length < 10 then none else some (f.payload.length, 10)
      split
      · rfl
      · rw [show unpack (slice data 2 10) = _ from hread (by decide) (by simp only [LengthForm.width]; omega)]

theorem maskKeyAndPos_wire (h : data <+: f.wire ++ suffix) (hpos : 2 + f.form.width ≤ data.length) :
    maskKeyAndPos data f.maskKey.isSome (2 + f.form.width) =
      if data.length < 2 + f.form.width + f.keyBytes.length then none
      else some (f.maskKey.map (·.val), 2 + f.form.width + f.keyBytes.length) := by
  have hread := fun hlen => slice_keyBytes h hlen
  cases hkey : f.maskKey with
  | none =>
      have hnil : f.keyBytes = [] := by simp [keyBytes, hkey]
      rw [hnil, List.length_nil, Nat.add_zero, if_neg (Nat.not_lt.mpr hpos)]
      rfl
  | some key =>
      have hval : f.keyBytes = key.val := by simp [keyBytes, hkey]
      rw [hval, key.property] at hread ⊢
      rw [maskKeyAndPos, if_pos Option.isSome_some]
      split
      · rfl
      · rw [hread (by omega), Option.map_some]

theorem decodeFrame_arrived (h : data <+: f.wire ++ suffix) :
    decodeFrame data = .ok (if data.length < f.wire.length then none else some (f.opcode, f.payload)) := by
  have hwire := f.length_wire
  match data, h with
  | [], _ => exact congrArg Except.ok (if_pos (by simp only [List.length_nil]; omega)).symm
  | [_], _ => exact congrArg Except.ok (if_pos (by simp only [List.length_cons, List.length_nil]; omega)).symm
  | first :: second :: tail, h =>
      have htwo : 2 ≤ (first :: second :: tail).length := by simp
      obtain ⟨rfl, hsecond⟩ := List.cons_prefix_cons.mp h
      obtain ⟨rfl, -⟩ := List.cons_prefix_cons.mp hsecond
      obtain ⟨hmask, hcode⟩ := code_bits f.form f.fits f.maskKey.isSome
      simp only [decodeFrame, ofValue_first]
      generalize hdata : (finBit ||| f.opcode.value) :: f.secondByte :: tail = data at h htwo ⊢
      refine congrArg Except.ok ?_
      rw [secondByte, hmask, hcode, lengthAndPos_wire h htwo]
      by_cases hpos : data.length < 2 + f.form.width
      · rw [if_pos hpos, if_pos (by omega)]
        rfl
      rw [if_neg hpos]
      change (maskKeyAndPos data f.maskKey.isSome (2 + f.form.width)).bind _ = _
      rw [maskKeyAndPos_wire h (Nat.not_lt.mp hpos)]
      by_cases hkey : data.length < 2 + f.form.width + f.keyBytes.length
      · rw [if_pos hkey, if_pos (by omega)]
        rfl
      rw [if_neg hkey, Option.bind_some, hwire]
      change (if data.length < 2 + f.form.width + f.keyBytes.length + f.payload.length then none else _) = _
      split
      · rfl
      · rename_i hwhole
        rw [slice_body h (by omega)]
        cases hmasked : f.maskKey with
        | none => simp only [Option.map_none, body, hmasked]
        | some key => simp only [Option.map_some, body, hmasked, unmask_unmask]

end Frame

def shortestForm (length : Nat) : LengthForm :=
  if length < 126 then .short else if length < 65536 then .medium else .long

theorem lt_shortestForm {length : Nat} (h : length < 2 ^ 64) : length < (shortestForm length).bound := by
  unfold shortestForm
  split
  · assumption
  · split
    · assumption
    · exact h

theorem encodeFrame_eq_wire {payload : Bytes} {opcode : Opcode} (h : payload.length < 2 ^ 64) :
    encodeFrame payload opcode =
      (Frame.mk opcode none payload (shortestForm payload.length) (lt_shortestForm h)).wire := by
  by_cases hshort : payload.length < 126
  · simp [encodeFrame, Frame.wire, Frame.secondByte, Frame.lengthBytes, Frame.keyBytes, Frame.body, shortestForm,
      hshort, LengthForm.code, LengthForm.width, pack]
  by_cases hmedium : payload.length < 65536 <;>
    simp [encodeFrame, Frame.wire, Frame.secondByte, Frame.lengthBytes, Frame.keyBytes, Frame.body, shortestForm,
      hshort, hmedium, LengthForm.code, LengthForm.width]

end Ws.RawWs
