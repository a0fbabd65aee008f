import JdRelay.Ws.Framing

namespace Ws.SocketReader
open Text RawWs

-- The bytes still to come, how many of them are there at each call of recv, and whether the peer closes behind them.
structure Socket where
  stream : Bytes
  ready : Nat → Nat
  ready_pos : ∀ i, 0 < ready i
  closed : Bool

namespace Socket

def after (s : Socket) (taken : Nat) : Socket where
  stream := s.stream.drop taken
  ready i := s.ready (i + 1)
  ready_pos i := s.ready_pos (i + 1)
  closed := s.closed

-- none where recv raises: nothing comes any more, and the peer has not closed.
def recv (s : Socket) (n : Nat) : Option (Bytes × Socket) :=
  if s.stream = [] then if s.closed then some ([], s) else none
  else
    let taken := min n (s.ready 0)
    some (s.stream.take taken, s.after taken)

variable {s s' : Socket} {n : Nat} {data : Bytes}

@[simp] theorem after_stream (s : Socket) (taken : Nat) : (s.after taken).stream = s.stream.drop taken := rfl

@[simp] theorem after_ready (s : Socket) (taken i : Nat) : (s.after taken).ready i = s.ready (i + 1) := rfl

theorem recv_stream (h : s.recv n = some (data, s')) : s.stream = data ++ s'.stream ∧ data.length ≤ n := by
  unfold recv at h
  split_ifs at h with hnil hclosed
  · cases h
    exact ⟨rfl, Nat.zero_le _⟩
  · cases h
    refine ⟨(List.take_append_drop _ _).symm, ?_⟩
    rw [List.length_take]
    omega

theorem recv_whole (hn : n ≤ s.ready 0) (hne : s.stream ≠ []) : s.recv n = some (s.stream.take n, s.after n) := by
  rw [recv, if_neg hne, Nat.min_eq_left hn]

theorem recv_all (h : s.recv n = some (data, s')) (hlength : data.length = n) (hn : 0 < n) :
    n ≤ s.ready 0 ∧ s'.ready = fun i => s.ready (i + 1) := by
  unfold recv at h
  split_ifs at h with hnil hclosed
  · cases h
    exact absurd hlength (Nat.ne_of_lt hn)
  · cases h
    refine ⟨?_, rfl⟩
    rw [List.length_take] at hlength
    omega

theorem recv_ne_nil (hn : 0 < n) (hne : s.stream ≠ []) :
    ∃ taken, 0 < taken ∧ taken ≤ n ∧ s.recv n = some (s.stream.take taken, s.after taken) :=
  ⟨min n (s.ready 0), lt_min hn (s.ready_pos 0), Nat.min_le_left _ _, by rw [recv, if_neg hne]⟩

end Socket

inductive FrameRead where
  | frame (opcode : UInt8) (payload : Bytes)
  | nothing
  | indexError
  | raised

def recvLength (length : Nat) (s : Socket) : Option (Nat × Socket) :=
  if length = 126 then (s.recv 2).map fun r => (unpack r.1, r.2)
  else if length = 127 then (s.recv 8).map fun r => (unpack r.1, r.2)
  else some (length, s)

def recvPayload : Nat → Nat → Socket → Option (Option Bytes × Socket)
  | _, 0, s => some (some [], s)
  | 0, _ + 1, s => some (none, s)
  | fuel + 1, left + 1, s => do
      let (chunk, s) ← s.recv (min (left + 1) 16384)
      if chunk = [] then some (none, s)
      else (recvPayload fuel (left + 1 - chunk.length) s).map fun r => (r.1.map (chunk ++ ·), r.2)

def unmasked (opcode : UInt8) (maskKey payload : Bytes) : FrameRead :=
  if ∀ i < payload.length, i % 4 < maskKey.length then .frame opcode (unmask maskKey payload) else .indexError

-- Only the first call of recv is inside the try.
def recvFrame (s : Socket) : FrameRead × Socket :=
  match s.recv 2 with
  | some ([first, second], s) =>
      match recvLength (second &&& 0x7F).toNat s with
      | none => (.raised, s)
      | some (length, s) =>
          match s.recv 4 with
          | none => (.raised, s)
          | some (maskKey, s) =>
              match recvPayload length length s with
              | none => (.raised, s)
              | some (none, s) => (.nothing, s)
              | some (some payload, s) => (unmasked (first &&& 0x0F) maskKey payload, s)
  | some (_, s) => (.nothing, s)
  | none => (.nothing, s)

section Payload

theorem recvPayload_whole {fuel : Nat} : ∀ {left : Nat} {s : Socket}, left ≤ fuel → left ≤ s.stream.length →
    ∃ s', recvPayload fuel left s = some (some (s.stream.take left), s') ∧ s'.stream = s.stream.drop left := by
  induction fuel with
  | zero =>
      intro left s hfuel _
      obtain rfl := Nat.le_zero.mp hfuel
      exact ⟨s, rfl, rfl⟩
  | succ fuel ih =>
      intro left s hfuel hlength
      cases left with
      | zero => exact ⟨s, rfl, rfl⟩
      | succ left =>
          have hne : s.stream ≠ [] := List.ne_nil_of_length_pos (by omega)
          obtain ⟨taken, hpos, hle, hrecv⟩ := Socket.recv_ne_nil (n := min (left + 1) 16384) (by omega) hne
          have hchunk : (s.stream.take taken).length = taken := by
            rw [List.length_take]
            omega
          have hsome : s.stream.take taken ≠ [] := List.ne_nil_of_length_pos (by omega)
          have hmore : left + 1 - taken ≤ (s.after taken).stream.length := by
            rw [Socket.after_stream, List.length_drop]
            omega
          obtain ⟨s', hrest, hstream⟩ := ih (by omega) hmore
          refine ⟨s', ?_, ?_⟩
          · have htake : s.stream.take taken ++ (s.stream.drop taken).take (left + 1 - taken) =
                s.stream.take (left + 1) := by
              rw [← List.take_add]
              congr 1
              omega
            simp only [recvPayload, hrecv, Option.bind_eq_bind, Option.bind_some, if_neg hsome, hchunk, hrest,
              Option.map_some, Socket.after_stream, htake]
          · rw [hstream, Socket.after_stream, List.drop_drop]
            congr 1
            omega

theorem recvPayload_stream {fuel : Nat} : ∀ {left : Nat} {s s' : Socket} {payload : Bytes},
    recvPayload fuel left s = some (some payload, s') → s.stream = payload ++ s'.stream ∧ payload.length = left := by
  induction fuel with
  | zero =>
      intro left s s' payload h
      cases left <;> cases h
      exact ⟨rfl, rfl⟩
  | succ fuel ih =>
      intro left s s' payload h
      cases left with
      | zero =>
          cases h
          exact ⟨rfl, rfl⟩
      | succ left =>
          simp only [recvPayload, Option.bind_eq_bind, Option.bind_eq_some_iff, Prod.exists] at h
          obtain ⟨chunk, s₁, hrecv, h⟩ := h
          obtain ⟨hstream, hlength⟩ := Socket.recv_stream hrecv
          split_ifs at h with hnil
          · cases h
          · obtain ⟨⟨rest, s₂⟩, hrest, hpair⟩ := Option.map_eq_some_iff.mp h
            obtain ⟨hpayload, rfl⟩ := Prod.mk.inj hpair
            obtain ⟨more, rfl, rfl⟩ := Option.map_eq_some_iff.mp hpayload
            obtain ⟨hmore, hsize⟩ := ih hrest
            refine ⟨by rw [hstream, hmore, List.append_assoc], ?_⟩
            rw [List.length_append, hsize]
            omega

end Payload

section Client

def clientWire (flags : UInt8) (f : Frame) : Bytes :=
  ((flags &&& 0xF0) ||| f.opcode.value) :: f.wire.tail

def HeaderWhole (form : LengthForm) (s : Socket) : Prop :=
  2 ≤ s.ready 0 ∧ if form = .short then 4 ≤ s.ready 1 else form.width ≤ s.ready 1 ∧ 4 ≤ s.ready 2

structure Agrees (frame suffix : Bytes) (s : Socket) : Prop where
  same : ∃ opcode payload, decodeFrame frame = .ok (some (opcode, payload)) ∧
    (recvFrame s).1 = .frame opcode.value payload
  position : (recvFrame s).2.stream = suffix

theorem opcode_bits (flags : UInt8) (opcode : Opcode) :
    ((flags &&& 0xF0) ||| opcode.value) &&& 0x0F = opcode.value := by
  have hflags : flags &&& 0xF0 &&& 0x0F = 0 := by
    rw [UInt8.and_assoc]
    exact UInt8.and_zero
  have hdistrib : ∀ a b c : UInt8, (a ||| b) &&& c = (a &&& c) ||| (b &&& c) := fun a b c =>
    UInt8.toBitVec_inj.mp BitVec.and_or_distrib_right
  rw [hdistrib, hflags, UInt8.zero_or]
  cases opcode <;> rfl

theorem pos_of_lengthAndPos {data : Bytes} {code length pos : Nat} (h : lengthAndPos data code = some (length, pos)) :
    0 < pos := by
  unfold lengthAndPos at h
  split_ifs at h <;> cases h <;> decide

theorem pos_of_maskKeyAndPos {data : Bytes} {masked : Bool} {pos pos' : Nat} {maskKey : Option Bytes}
    (h : maskKeyAndPos data masked pos = some (maskKey, pos')) : pos ≤ pos' := by
  unfold maskKeyAndPos at h
  split_ifs at h <;> cases h <;> omega

theorem decodeFrame_first {first first' : UInt8} (h : first &&& 0x0F = first' &&& 0x0F) (data : Bytes) :
    decodeFrame (first :: data) = decodeFrame (first' :: data) := by
  cases data with
  | nil => rfl
  | cons second rest =>
      simp only [decodeFrame, h]
      refine congrArg _ (funext fun opcode => congrArg Except.ok ?_)
      have hlength : ∀ code, lengthAndPos (first :: second :: rest) code = lengthAndPos (first' :: second :: rest) code :=
        fun code => rfl
      rw [hlength]
      refine Option.bind_congr fun found hpos => ?_
      obtain ⟨length, pos⟩ := found
      obtain ⟨pos, rfl⟩ := Nat.exists_eq_succ_of_ne_zero (pos_of_lengthAndPos hpos).ne'
      have hmask : ∀ masked, maskKeyAndPos (first :: second :: rest) masked (pos + 1) =
          maskKeyAndPos (first' :: second :: rest) masked (pos + 1) := fun masked => rfl
      simp only [Nat.succ_eq_add_one, hmask]
      refine Option.bind_congr fun found hpos' => ?_
      obtain ⟨maskKey, pos'⟩ := found
      obtain ⟨pos', rfl⟩ := Nat.exists_eq_succ_of_ne_zero
        (Nat.lt_of_lt_of_le (Nat.succ_pos pos) (pos_of_maskKeyAndPos hpos')).ne'
      rfl

theorem decodeFrame_clientWire (flags : UInt8) (f : Frame) :
    decodeFrame (clientWire flags f) = .ok (some (f.opcode, f.payload)) := by
  have hwhole := (Framing.inverts_wire f).whole []
  rw [List.append_nil] at hwhole
  rw [← hwhole]
  exact decodeFrame_first ((opcode_bits flags f.opcode).trans (opcode_bits 0x80 f.opcode).symm) _

variable {s s' : Socket} {f : Frame}

theorem recvLength_short (h : f.form = .short) :
    recvLength (f.secondByte &&& 0x7F).toNat s = some (f.payload.length, s) := by
  obtain ⟨-, hcode⟩ := Frame.code_bits f.form f.fits f.maskKey.isSome
  have hfits := f.fits
  rw [h] at hcode hfits
  have hlength : (LengthForm.short.code f.payload.length).toNat = f.payload.length :=
    UInt8.toNat_ofNat_of_lt' (hfits.trans (by decide))
  rw [LengthForm.bound] at hfits
  rw [Frame.secondByte, h, hcode, hlength, recvLength, if_neg (by omega), if_neg (by omega)]

theorem recvLength_form (h : f.form ≠ .short) :
    recvLength (f.secondByte &&& 0x7F).toNat s = (s.recv f.form.width).map fun r => (unpack r.1, r.2) := by
  obtain ⟨-, hcode⟩ := Frame.code_bits f.form f.fits f.maskKey.isSome
  rw [Frame.secondByte, hcode]
  cases hform : f.form with
  | short => exact absurd hform h
  | medium => rfl
  | long => rfl

theorem unmasked_frame {opcode op : UInt8} {maskKey raw payload : Bytes}
    (h : unmasked opcode maskKey raw = .frame op payload) : op = opcode ∧ payload = unmask maskKey raw := by
  unfold unmasked at h
  split_ifs at h
  cases h
  exact ⟨rfl, rfl⟩

theorem recvFrame_frame {op : UInt8} {payload : Bytes} (h : (recvFrame s).1 = .frame op payload) :
    ∃ first second s₁ length s₂ maskKey s₃ raw,
      s.recv 2 = some ([first, second], s₁) ∧ recvLength (second &&& 0x7F).toNat s₁ = some (length, s₂) ∧
        s₂.recv 4 = some (maskKey, s₃) ∧ recvPayload length length s₃ = some (some raw, (recvFrame s).2) ∧
          unmasked (first &&& 0x0F) maskKey raw = .frame op payload := by
  unfold recvFrame at h ⊢
  split at h
  · rename_i first second s₁ hheader
    split at h
    · cases h
    · rename_i length s₂ hlength
      split at h
      · cases h
      · rename_i maskKey s₃ hkey
        split at h
        · cases h
        · cases h
        · rename_i raw s₄ hpayload
          refine ⟨first, second, s₁, length, s₂, maskKey, s₃, raw, hheader, hlength, hkey, ?_, h⟩
          simp only [hpayload]
  · cases h
  · cases h

theorem recvLength_shorter {length m : Nat} (h : recvLength length s = some (m, s')) :
    s'.stream.length ≤ s.stream.length := by
  have hmap : ∀ {n}, ((s.recv n).map fun r => (unpack r.1, r.2)) = some (m, s') →
      s'.stream.length ≤ s.stream.length := fun {n} h => by
    obtain ⟨⟨data, s₁⟩, hrecv, hpair⟩ := Option.map_eq_some_iff.mp h
    obtain rfl : s₁ = s' := (Prod.mk.inj hpair).2
    rw [(Socket.recv_stream hrecv).1, List.length_append]
    exact Nat.le_add_left _ _
  unfold recvLength at h
  split_ifs at h
  · exact hmap h
  · exact hmap h
  · cases h
    exact le_refl _

theorem recvFrame_shorter {op : UInt8} {payload : Bytes} (h : recvFrame s = (.frame op payload, s')) :
    s'.stream.length < s.stream.length := by
  obtain ⟨first, second, s₁, length, s₂, maskKey, s₃, raw, hheader, hlength, hmask, hpayload, -⟩ :=
    recvFrame_frame (congrArg Prod.fst h)
  rw [h] at hpayload
  have hs₁ := congrArg List.length (Socket.recv_stream hheader).1
  have hs₂ := recvLength_shorter hlength
  have hs₃ := congrArg List.length (Socket.recv_stream hmask).1
  have hs₄ := congrArg List.length (recvPayload_stream hpayload).1
  simp only [List.length_append, List.length_cons, List.length_nil] at hs₁ hs₃ hs₄
  omega

theorem clientWire_eq (flags : UInt8) (f : Frame) (suffix : Bytes) : clientWire flags f ++ suffix =
    [(flags &&& 0xF0) ||| f.opcode.value, f.secondByte] ++ (f.lengthBytes ++ (f.keyBytes ++ (f.body ++ suffix))) := by
  simp [clientWire, Frame.wire]

theorem width_pos {form : LengthForm} (h : form ≠ .short) : 0 < form.width := by
  cases form with
  | short => exact absurd rfl h
  | medium => decide
  | long => decide

theorem recvLength_whole {rest : Bytes} (hs : s.stream = f.lengthBytes ++ rest)
    (hready : f.form ≠ .short → f.form.width ≤ s.ready 0) :
    ∃ s', recvLength (f.secondByte &&& 0x7F).toNat s = some (f.payload.length, s') ∧ s'.stream = rest ∧
      ∀ i, s'.ready i = if f.form = .short then s.ready i else s.ready (i + 1) := by
  have hwidth : f.lengthBytes.length = f.form.width := length_pack _ _
  by_cases hform : f.form = .short
  · have hnil : f.lengthBytes = [] := by
      rw [hform] at hwidth
      exact List.length_eq_zero_iff.mp hwidth
    exact ⟨s, recvLength_short hform, by rw [hs, hnil, List.nil_append], fun i => (if_pos hform).symm⟩
  · have hpos : 0 < f.lengthBytes.length := hwidth ▸ width_pos hform
    have hne : s.stream ≠ [] := by
      rw [hs]
      exact List.append_ne_nil_of_left_ne_nil (List.ne_nil_of_length_pos hpos) _
    refine ⟨s.after f.form.width, ?_, ?_, fun i => (if_neg hform).symm⟩
    · rw [recvLength_form hform, Socket.recv_whole (hready hform) hne, hs, List.take_left' hwidth, Option.map_some,
        f.unpack_lengthBytes hform]
    · rw [Socket.after_stream, hs, List.drop_left' hwidth]

theorem recvFrame_whole {flags : UInt8} {suffix : Bytes} (hmasked : f.maskKey.isSome)
    (hs : s.stream = clientWire flags f ++ suffix) (hwhole : HeaderWhole f.form s) :
    ∃ s', recvFrame s = (.frame f.opcode.value f.payload, s') ∧ s'.stream = suffix := by
  obtain ⟨key, hkey⟩ := Option.isSome_iff_exists.mp hmasked
  have hkeyBytes : f.keyBytes = key.val := by simp [Frame.keyBytes, hkey]
  have hbody : unmask key.val f.body = f.payload := by simp only [Frame.body, hkey, unmask_unmask]
  rw [clientWire_eq] at hs
  obtain ⟨htwo, hwhole⟩ := hwhole
  have hheader := Socket.recv_whole htwo (by simp [hs])
  have hbehind : (s.after 2).stream = f.lengthBytes ++ (f.keyBytes ++ (f.body ++ suffix)) := by simp [hs]
  obtain ⟨s₂, hlength, hs₂, hready⟩ := recvLength_whole hbehind fun hform => by
    rw [if_neg hform] at hwhole
    exact hwhole.1
  have hfour : 4 ≤ s₂.ready 0 := by
    rw [hready]
    split_ifs at hwhole ⊢
    · exact hwhole
    · exact hwhole.2
  rw [hkeyBytes] at hs₂
  have hmask := Socket.recv_whole hfour (by
    rw [hs₂]
    exact List.append_ne_nil_of_left_ne_nil (List.ne_nil_of_length_pos (by rw [key.property]; decide)) _)
  have hrest : (s₂.after 4).stream = f.body ++ suffix := by
    rw [Socket.after_stream, hs₂, List.drop_left' key.property]
  have henough : f.payload.length ≤ (s₂.after 4).stream.length := by
    rw [hrest, List.length_append, f.length_body]
    exact Nat.le_add_right _ _
  obtain ⟨s₃, hpayload, hs₃⟩ := recvPayload_whole (le_refl f.payload.length) henough
  rw [hrest, List.take_left' f.length_body] at hpayload
  rw [hrest, List.drop_left' f.length_body] at hs₃
  refine ⟨s₃, ?_, hs₃⟩
  have hindex : ∀ i < f.body.length, i % 4 < key.val.length := fun i _ => by
    rw [key.property]
    exact Nat.mod_lt _ (by decide)
  have htake : s₂.stream.take 4 = key.val := by rw [hs₂, List.take_left' key.property]
  simp only [recvFrame, hheader, hs, List.cons_append, List.nil_append, List.take_succ_cons, List.take_zero, hlength,
    hmask, htake, hpayload, unmasked, if_pos hindex, opcode_bits, hbody]

theorem agrees_of_whole {flags : UInt8} {suffix : Bytes} (hmasked : f.maskKey.isSome)
    (hs : s.stream = clientWire flags f ++ suffix) (hwhole : HeaderWhole f.form s) :
    Agrees (clientWire flags f) suffix s := by
  obtain ⟨s', hread, hs'⟩ := recvFrame_whole hmasked hs hwhole
  exact ⟨⟨f.opcode, f.payload, decodeFrame_clientWire flags f, by rw [hread]⟩, by rw [hread]; exact hs'⟩

theorem whole_of_agrees {flags : UInt8} {suffix : Bytes} (hmasked : f.maskKey.isSome)
    (hs : s.stream = clientWire flags f ++ suffix) (h : Agrees (clientWire flags f) suffix s) :
    HeaderWhole f.form s := by
  obtain ⟨⟨opcode, payload, hdecode, hread⟩, hposition⟩ := h
  have hsame : payload = f.payload := by
    rw [decodeFrame_clientWire] at hdecode
    cases hdecode
    rfl
  have hkey : f.keyBytes.length = 4 := by
    obtain ⟨key, hkey⟩ := Option.isSome_iff_exists.mp hmasked
    simp [Frame.keyBytes, hkey, key.property]
  obtain ⟨first, second, s₁, length, s₂, maskKey, s₃, raw, hheader, hlength, hmask, hpayload, hframe⟩ :=
    recvFrame_frame hread
  obtain ⟨hs₁, -⟩ := Socket.recv_stream hheader
  obtain ⟨hs₃, hfour⟩ := Socket.recv_stream hmask
  obtain ⟨hs₄, hraw⟩ := recvPayload_stream hpayload
  obtain ⟨-, hunmask⟩ := unmasked_frame hframe
  have hsize : raw.length = f.payload.length := by rw [← hsame, hunmask, length_unmask]
  obtain ⟨htwo, hready₁⟩ := Socket.recv_all hheader rfl (by decide)
  rw [hs, clientWire_eq] at hs₁
  obtain ⟨-, hsecond, hstream₁⟩ : first = (flags &&& 0xF0) ||| f.opcode.value ∧ second = f.secondByte ∧
      s₁.stream = f.lengthBytes ++ (f.keyBytes ++ (f.body ++ suffix)) := by
    simpa [eq_comm] using hs₁
  rw [hsecond] at hlength
  have htotal : s₁.stream.length = f.form.width + 4 + f.payload.length + suffix.length := by
    rw [hstream₁]
    simp only [List.length_append, Frame.lengthBytes, length_pack, hkey, f.length_body]
    omega
  have hrest : s₂.stream.length = maskKey.length + f.payload.length + suffix.length := by
    rw [hs₃, hs₄, hposition, List.length_append, List.length_append, hsize]
    omega
  refine ⟨htwo, ?_⟩
  split_ifs with hform
  · rw [recvLength_short hform] at hlength
    cases hlength
    have hall : maskKey.length = 4 := by
      rw [hform, LengthForm.width] at htotal
      omega
    have hready := (Socket.recv_all hmask hall (by decide)).1
    rwa [hready₁] at hready
  · rw [recvLength_form hform] at hlength
    obtain ⟨⟨data, s₂'⟩, hdata, hpair⟩ := Option.map_eq_some_iff.mp hlength
    obtain rfl : s₂' = s₂ := (Prod.mk.inj hpair).2
    obtain ⟨hs₂, hle⟩ := Socket.recv_stream hdata
    have hsum : s₁.stream.length = data.length + s₂'.stream.length := by rw [hs₂, List.length_append]
    have hdataAll : data.length = f.form.width := by omega
    have hkeyAll : maskKey.length = 4 := by omega
    obtain ⟨hwide, hready₂⟩ := Socket.recv_all hdata hdataAll (width_pos hform)
    have hready := (Socket.recv_all hmask hkeyAll (by decide)).1
    rw [hready₂, hready₁] at hready
    rw [hready₁] at hwide
    exact ⟨hwide, hready⟩

theorem frame_readers_agree_iff (f : Frame) (flags : UInt8) (suffix : Bytes) (s : Socket) (hmasked : f.maskKey.isSome)
    (hs : s.stream = clientWire flags f ++ suffix) :
    Agrees (clientWire flags f) suffix s ↔ HeaderWhole f.form s :=
  ⟨whole_of_agrees hmasked hs, agrees_of_whole hmasked hs⟩

end Client

section Sample

open RawRecv (textA)

def slowSocket : Socket := ⟨clientWire 0x80 textA, fun _ => 1, fun _ => Nat.one_pos, true⟩

def longText : Frame where
  opcode := .text
  maskKey := some ⟨[0x37, 0xFA, 0x21, 0x3D], rfl⟩
  payload := List.replicate 1000 0x61
  form := .medium
  fits := by rw [List.length_replicate]; decide

-- The header, the length and the key come whole, the payload in pieces, and a second frame behind it.
def pieceSocket : Socket where
  stream := clientWire 0x80 longText ++ clientWire 0x80 textA
  ready i := if i < 3 then 4 else 64 * i
  ready_pos i := by split <;> omega
  closed := true

theorem pieces_agree :
    HeaderWhole .medium pieceSocket ∧ Agrees (clientWire 0x80 longText) (clientWire 0x80 textA) pieceSocket := by
  have hwhole : HeaderWhole .medium pieceSocket := ⟨by decide, by decide, by decide⟩
  exact ⟨hwhole, (frame_readers_agree_iff longText 0x80 (clientWire 0x80 textA) pieceSocket rfl rfl).mpr hwhole⟩

-- The header comes in two segments: the connection is given up.
theorem slow_header_dropped :
    (recvFrame slowSocket).1 = .nothing ∧ ¬ Agrees (clientWire 0x80 textA) [] slowSocket := by
  have hnothing : (recvFrame slowSocket).1 = .nothing := rfl
  refine ⟨hnothing, fun h => ?_⟩
  obtain ⟨opcode, payload, -, hread⟩ := h.same
  rw [hnothing] at hread
  cases hread

end Sample

end Ws.SocketReader
