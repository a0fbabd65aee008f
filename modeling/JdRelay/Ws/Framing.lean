import JdRelay.Ws.RawRecv
import JdRelay.Ws.Sending

namespace Ws.Framing
open Text Python RawWs RawRecv

section Inverse

-- The single frames of RFC 6455: what encode_frame writes, or the masked frame in any form that holds the length.
inductive SingleFrame (opcode : Opcode) (payload : Bytes) : Option MaskKey → Bytes → Prop
  | unmasked : SingleFrame opcode payload none (encodeFrame payload opcode)
  | masked (key : MaskKey) (form : LengthForm) (fits : payload.length < form.bound) :
      SingleFrame opcode payload (some key) (Frame.mk opcode (some key) payload form fits).wire

structure Inverts (frame : Bytes) (opcode : Opcode) (payload : Bytes) : Prop where
  whole : ∀ suffix, decodeFrame (frame ++ suffix) = .ok (some (opcode, payload))
  cut : ∀ part, part <+: frame → part ≠ frame → decodeFrame part = .ok none

theorem inverts_wire (f : Frame) : Inverts f.wire f.opcode f.payload where
  whole suffix := by
    rw [Frame.decodeFrame_arrived (List.prefix_refl _), if_neg]
    rw [List.length_append]
    omega
  cut part hpart hne := by
    have hshort : part.length < f.wire.length :=
      lt_of_le_of_ne hpart.length_le fun hlen => hne (hpart.eq_of_length hlen)
    have harrived : part <+: f.wire ++ [] := by simpa using hpart
    rw [Frame.decodeFrame_arrived harrived, if_pos hshort]

theorem inverts_encodeFrame {opcode : Opcode} {payload : Bytes} (h : payload.length < 2 ^ 64) :
    Inverts (encodeFrame payload opcode) opcode payload := by
  rw [encodeFrame_eq_wire h]
  exact inverts_wire _

theorem decode_inverts_frame {opcode : Opcode} {payload frame : Bytes} {maskKey : Option MaskKey}
    (hlength : payload.length < 2 ^ 63) (hframe : SingleFrame opcode payload maskKey frame) :
    Inverts frame opcode payload := by
  cases hframe with
  | unmasked => exact inverts_encodeFrame (hlength.trans (by norm_num))
  | masked key form fits => exact inverts_wire _

theorem decode_inverts_ping :
    SingleFrame .ping [97] (some zeroKey) pingA.wire ∧ Inverts pingA.wire .ping [97] :=
  ⟨.masked zeroKey .medium (by decide),
    decode_inverts_frame (by decide) (.masked zeroKey .medium (by decide))⟩

end Inverse

section Writers

open Sending
open Json (Value)
open Crypto (CryptoCodec MessageType)

def WritersAgree (payload : Bytes) (opcode : Opcode) : Prop :=
  sendFrame payload opcode = some (encodeFrame payload opcode) ∧
    decodeFrame (encodeFrame payload opcode) = .ok (some (opcode, payload))

theorem sendFrame_short {payload : Bytes} {opcode : Opcode} (h : payload.length < 65536) :
    sendFrame payload opcode = some (encodeFrame payload opcode) := by
  by_cases hshort : payload.length < 126 <;> simp [sendFrame, encodeFrame, hshort, h]

theorem sendFrame_long {payload : Bytes} {opcode : Opcode} (h : 65536 ≤ payload.length) :
    sendFrame payload opcode = none := by
  have hshort : ¬payload.length < 126 := by omega
  simp [sendFrame, hshort, Nat.not_lt.mpr h]

theorem agree_of_short {payload : Bytes} {opcode : Opcode} (h : payload.length < 65536) :
    WritersAgree payload opcode := by
  refine ⟨sendFrame_short h, ?_⟩
  have hinverts : Inverts (encodeFrame payload opcode) opcode payload := inverts_encodeFrame (h.trans (by norm_num))
  have hwhole := hinverts.whole []
  rwa [List.append_nil] at hwhole

theorem sendEncryptedManual_wrote {reprOf : Value → Str} {r : Readings} {msgType : MessageType} {payload encJson : Str}
    {codec : CryptoCodec} {data : Bytes} (hencrypted : encrypted reprOf r msgType payload codec = .ok encJson)
    (hdata : encodeUtf8 encJson = some data) (hwritten : r.written = true) :
    (sendEncryptedManual reprOf r msgType payload (some codec)).wrote = (sendFrame data .text).map .frame := by
  simp only [sendEncryptedManual, hencrypted, frameOf, hdata, Option.bind_some]
  cases sendFrame data .text <;> simp [attempt, hwritten]

theorem frame_writers_agree_iff (data : Bytes) (opcode : Opcode) :
    (WritersAgree data opcode ↔ data.length < 65536) ∧
      ∀ (reprOf : Value → Str) (r : Readings) (payload encJson : Str) (codec : CryptoCodec),
        encrypted reprOf r .buildTrigger payload codec = .ok encJson → encodeUtf8 encJson = some data →
          r.written = true →
            ((sendEncryptedManual reprOf r .buildTrigger payload (some codec)).wrote =
              some (.frame (encodeFrame data .text)) ↔ data.length < 65536) := by
  refine ⟨⟨fun h => ?_, agree_of_short⟩, fun reprOf r payload encJson codec hencrypted hdata hwritten => ?_⟩
  · by_contra hlong
    rw [WritersAgree, sendFrame_long (Nat.not_lt.mp hlong)] at h
    cases h.1
  · rw [sendEncryptedManual_wrote hencrypted hdata hwritten]
    constructor
    · intro h
      by_contra hlong
      rw [sendFrame_long (Nat.not_lt.mp hlong)] at h
      cases h
    · intro h
      rw [sendFrame_short h]
      rfl

-- length.to_bytes(2, 'big') has no room for 65536.
theorem long_payload_raises :
    sendFrame (List.replicate 65536 0) .text = none ∧ ¬ WritersAgree (List.replicate 65536 0) .text := by
  have hnone : sendFrame (List.replicate 65536 0) .text = none := sendFrame_long (by rw [List.length_replicate])
  refine ⟨hnone, fun h => ?_⟩
  rw [WritersAgree, hnone] at h
  cases h.1

end Writers

section Opcodes

def opcodes : List Opcode := [.text, .binary, .close, .ping, .pong]

def KnownOpcode (data : Bytes) : Prop :=
  match data with
  | first :: _ :: _ => first &&& 0x0F ∈ opcodes.map (·.value)
  | _ => True

instance (data : Bytes) : Decidable (KnownOpcode data) := by
  unfold KnownOpcode
  split <;> infer_instance

structure Survives (data : Bytes) : Prop where
  decoded : ∃ result, decodeFrame data = .ok result
  received : ∀ buf chunk, buf ++ chunk = data → chunk ≠ [] →
    ∀ chunks, recvLoop buf (chunk :: chunks) ≠ ⟨[], .raised .valueError, chunks⟩

theorem ofValue_ok_iff {value : UInt8} :
    (∃ opcode, Opcode.ofValue value = .ok opcode) ↔ value ∈ opcodes.map (·.value) := by
  simp only [Opcode.ofValue, opcodes, List.map_cons, List.map_nil, Opcode.value, List.mem_cons, List.not_mem_nil,
    or_false]
  split_ifs <;> simp_all

theorem decodeFrame_ok_iff {data : Bytes} : (∃ result, decodeFrame data = .ok result) ↔ KnownOpcode data := by
  match data with
  | [] => exact iff_of_true ⟨none, rfl⟩ trivial
  | [_] => exact iff_of_true ⟨none, rfl⟩ trivial
  | first :: second :: rest =>
      rw [KnownOpcode, ← ofValue_ok_iff]
      cases hopcode : Opcode.ofValue (first &&& 0x0F) with
      | error e => simp [decodeFrame, hopcode, bind, Except.bind]
      | ok opcode => simp [decodeFrame, hopcode, bind, Except.bind]

theorem recvLoop_takes {chunks : List Bytes} : ∀ {buf : Bytes}, chunks ≠ [] →
    (recvLoop buf chunks).unread.length < chunks.length := by
  induction chunks with
  | nil => exact fun h => absurd rfl h
  | cons chunk chunks ih =>
      intro buf _
      have hlater : ∀ buf, (recvLoop buf chunks).unread.length < (chunk :: chunks).length := fun buf => by
        by_cases hnil : chunks = []
        · subst hnil
          exact Nat.zero_lt_one
        · exact (ih hnil).trans (Nat.lt_succ_self _)
      rw [recvLoop]
      split_ifs
      · exact Nat.lt_succ_self _
      · split
        · exact Nat.lt_succ_self _
        · exact hlater _
        · split_ifs
          · exact Nat.lt_succ_self _
          · exact hlater _
          · exact Nat.lt_succ_self _
          · exact hlater _

theorem recvLoop_passes {buf : Bytes} {chunks : List Bytes} :
    recvLoop buf chunks ≠ ⟨[], .raised .valueError, chunks⟩ := by
  intro h
  by_cases hnil : chunks = []
  · subst hnil
    cases h
  · have htakes : (recvLoop buf chunks).unread.length < chunks.length := recvLoop_takes hnil
    rw [h] at htakes
    exact absurd htakes (Nat.lt_irrefl _)

theorem decoded_ne_valueError (payload : Bytes) : decoded payload ≠ .raised .valueError := by
  unfold decoded
  split <;> simp

theorem survives_iff (data : Bytes) : Survives data ↔ KnownOpcode data := by
  refine ⟨fun h => decodeFrame_ok_iff.mp h.decoded, fun h => ⟨decodeFrame_ok_iff.mpr h, ?_⟩⟩
  rintro buf chunk rfl hchunk chunks
  obtain ⟨result, hresult⟩ := decodeFrame_ok_iff.mpr h
  rw [recvLoop, if_neg hchunk, hresult]
  cases result with
  | none => exact recvLoop_passes
  | some frame =>
      obtain ⟨opcode, payload⟩ := frame
      cases opcode with
      | text => simpa using decoded_ne_valueError payload
      | binary => simpa using decoded_ne_valueError payload
      | close => simp
      | ping => simp
      | pong => exact recvLoop_passes

-- A masked continuation frame without payload, as a client sends it behind a TEXT frame with FIN 0.
def continuation : Bytes := [0x80, 0x80, 0, 0, 0, 0]

theorem continuation_raises : decodeFrame continuation = .error .valueError ∧
    (recv [continuation, textA.wire]).result = .raised .valueError ∧ ¬ Survives continuation :=
  ⟨rfl, by rfl, fun h => absurd ((survives_iff _).mp h) (by decide)⟩

end Opcodes

end Ws.Framing
