import JdRelay.Ws.IoLoop
import JdRelay.Ws.RawRecv

namespace Ws.ManualServer
open Text Json Crypto RawWs IoLoop
open Agent.Transit (msgType)

section Receive

-- sock.recv gives all it is asked for, less only where the peer has closed behind it.
def recvPayload : Nat → Nat → Bytes → Option (Bytes × Bytes)
  | _, 0, stream => some ([], stream)
  | 0, _ + 1, _ => none
  | fuel + 1, left + 1, stream =>
      let chunk := stream.take (min (left + 1) 16384)
      if chunk = [] then none
      else
        (recvPayload fuel (left + 1 - chunk.length) (stream.drop chunk.length)).map fun r => (chunk ++ r.1, r.2)

def recvLength (length : Nat) (stream : Bytes) : Nat × Bytes :=
  if length = 126 then (unpack (stream.take 2), stream.drop 2)
  else if length = 127 then (unpack (stream.take 8), stream.drop 8)
  else (length, stream)

-- The opcode, the payload and what is left of the stream. FIN is not looked at.
def recvFrame (stream : Bytes) : Option ((UInt8 × Bytes) × Bytes) :=
  match stream with
  | first :: second :: stream =>
      let (length, stream) := recvLength (second &&& 0x7F).toNat stream
      let maskKey := stream.take 4
      (recvPayload length length (stream.drop 4)).map fun r => ((first &&& 0x0F, unmask maskKey r.1), r.2)
  | _ => none

inductive Kind where
  | continuation | text | close | ping | pong
  deriving DecidableEq

def Kind.value : Kind → UInt8
  | .continuation => 0x0
  | .text => 0x1
  | .close => 0x8
  | .ping => 0x9
  | .pong => 0xA

def Kind.control : Kind → Bool
  | .continuation => false
  | .text => false
  | .close => true
  | .ping => true
  | .pong => true

-- A payload with its masking key. The first bit of a 64-bit length is 0.
structure Piece where
  key : MaskKey
  payload : Bytes
  fits : payload.length < 2 ^ 63

structure Frame where
  fin : Bool
  kind : Kind
  piece : Piece

namespace Frame

variable (f : Frame)

def form : LengthForm := shortestForm f.piece.payload.length

def firstByte : UInt8 := (if f.fin then finBit else 0) ||| f.kind.value

def secondByte : UInt8 := (if true then maskBit else 0) ||| f.form.code f.piece.payload.length

def wire : Bytes :=
  f.firstByte :: f.secondByte ::
    (pack f.form.width f.piece.payload.length ++ (f.piece.key.val ++ unmask f.piece.key.val f.piece.payload))

theorem opcode_bits (fin : Bool) (kind : Kind) :
    ((if fin then finBit else 0) ||| kind.value) &&& 0x0F = kind.value := by
  cases fin <;> cases kind <;> decide

theorem fits_form : f.piece.payload.length < f.form.bound :=
  lt_shortestForm (f.piece.fits.trans (by norm_num))

end Frame

theorem recvPayload_append {fuel : Nat} : ∀ {payload : Bytes}, payload.length ≤ fuel → ∀ stream,
    recvPayload fuel payload.length (payload ++ stream) = some (payload, stream) := by
  induction fuel with
  | zero =>
      intro payload h stream
      obtain rfl := List.length_eq_zero_iff.mp (Nat.le_zero.mp h)
      rfl
  | succ fuel ih =>
      intro payload h stream
      cases hlength : payload.length with
      | zero =>
          obtain rfl := List.length_eq_zero_iff.mp hlength
          rfl
      | succ left =>
          have hchunk : (payload ++ stream).take (min (left + 1) 16384) = payload.take (min (left + 1) 16384) :=
            List.take_append_of_le_length (by omega)
          have hsize : (payload.take (min (left + 1) 16384)).length = min (left + 1) 16384 := by
            rw [List.length_take]
            omega
          have hne : payload.take (min (left + 1) 16384) ≠ [] := List.ne_nil_of_length_pos (by omega)
          have hrest : left + 1 - min (left + 1) 16384 = (payload.drop (min (left + 1) 16384)).length := by
            rw [List.length_drop, hlength]
          have hdrop : (payload ++ stream).drop (min (left + 1) 16384) =
              payload.drop (min (left + 1) 16384) ++ stream := List.drop_append_of_le_length (by omega)
          have hmore := ih (show (payload.drop (min (left + 1) 16384)).length ≤ fuel by omega) stream
          simp only [recvPayload, hchunk, if_neg hne, hsize, hdrop, hrest, hmore, Option.map_some,
            List.take_append_drop]

theorem recvLength_form (f : Frame) (stream : Bytes) :
    recvLength (f.form.code f.piece.payload.length).toNat (pack f.form.width f.piece.payload.length ++ stream) =
      (f.piece.payload.length, stream) := by
  have hfits := f.fits_form
  have htake (width : Nat) (n : Nat) : (pack width n ++ stream).take width = pack width n ∧
      (pack width n ++ stream).drop width = stream := by
    have hwidth := length_pack width n
    exact ⟨List.take_left' hwidth, List.drop_left' hwidth⟩
  cases hform : f.form with
  | short =>
      rw [hform, LengthForm.bound] at hfits
      have hcode : (LengthForm.short.code f.piece.payload.length).toNat = f.piece.payload.length :=
        UInt8.toNat_ofNat_of_lt' (by simp only [UInt8.size]; omega)
      rw [hcode, recvLength, if_neg (by omega), if_neg (by omega)]
      rfl
  | medium =>
      rw [hform] at hfits
      change (unpack ((pack 2 _ ++ stream).take 2), (pack 2 _ ++ stream).drop 2) = _
      have hsame : f.piece.payload.length % 256 ^ 2 = f.piece.payload.length := Nat.mod_eq_of_lt hfits
      rw [(htake 2 _).1, (htake 2 _).2, unpack_pack, hsame]
  | long =>
      rw [hform] at hfits
      change (unpack ((pack 8 _ ++ stream).take 8), (pack 8 _ ++ stream).drop 8) = _
      have hsame : f.piece.payload.length % 256 ^ 8 = f.piece.payload.length :=
        Nat.mod_eq_of_lt (by simpa [LengthForm.bound] using hfits)
      rw [(htake 8 _).1, (htake 8 _).2, unpack_pack, hsame]

theorem recvFrame_wire (f : Frame) (stream : Bytes) :
    recvFrame (f.wire ++ stream) = some ((f.kind.value, f.piece.payload), stream) := by
  have hcode : f.secondByte &&& 0x7F = f.form.code f.piece.payload.length :=
    (RawWs.Frame.code_bits f.form f.fits_form true).2
  have hopcode : f.firstByte &&& 0x0F = f.kind.value := Frame.opcode_bits f.fin f.kind
  have hkey := f.piece.key.property
  have hmasked := length_unmask f.piece.key.val f.piece.payload
  have hread := recvPayload_append hmasked.le stream
  rw [hmasked] at hread
  simp only [Frame.wire, List.cons_append, List.append_assoc, recvFrame, hcode, recvLength_form, List.take_left' hkey,
    List.drop_left' hkey, hread, Option.map_some, hopcode, unmask_unmask]

end Receive

section Loop

structure Readings where
  now₁ : Int
  now₂ : Int
  send : Sending.Readings

variable (reprOf : Value → Str) (hasMessageCb : Bool)

-- none where an exception leaves the loop.
def sendAck (codec : CryptoCodec) (r : Readings) (payload : Str) : Option CryptoCodec :=
  if (Sending.sendEncryptedManual reprOf r.send .ack payload (some codec)).returned then some codec else none

def messageCb (codec : CryptoCodec) (plaintext : Bytes) : Option CryptoCodec :=
  if hasMessageCb && (decodeUtf8 plaintext).isNone then none else some codec

def handleAccepted (codec : CryptoCodec) (r : Readings) (env : CryptoEnvelope) (type : MessageType)
    (plaintext : Bytes) : Option CryptoCodec :=
  if type = .heartbeat then sendAck reprOf codec r Agent.WsClient.heartbeatAck
  else if type = .ack then some codec
  else if type = .buildTrigger then
    (sendAck reprOf codec r (triggerAck env.msgId)).bind fun codec => messageCb hasMessageCb codec plaintext
  else messageCb hasMessageCb codec plaintext

def envelopeOf (text : Str) : Except Python.Error (CryptoEnvelope × MessageType) := do
  let env ← CryptoEnvelope.fromJson text
  let type ← msgType env.type
  .ok (env, type)

-- A ValueError of the envelope is skipped, every other exception is not caught inside the loop.
def handleText (codec : CryptoCodec) (r : Readings) (text : Str) : Option CryptoCodec :=
  match codec.decrypt reprOf r.now₁ r.now₂ text with
  | (.error _, _) => none
  | (.ok result, codec) =>
      if !result.ok then some codec
      else
        match envelopeOf text with
        | .ok (env, type) => handleAccepted reprOf hasMessageCb codec r env type result.plaintext
        | .error .valueError => some codec
        | .error .jsonDecodeError => some codec
        | .error _ => none

def ioLoop : Nat → CryptoCodec → (Nat → Readings) → Bytes → List (UInt8 × Str)
  | 0, _, _, _ => []
  | fuel + 1, codec, rs, stream =>
      match recvFrame stream with
      | none => []
      | some ((opcode, payload), stream) =>
          if opcode = 0x8 then []
          else
            match decodeUtf8 payload with
            | none => []
            | some text =>
                (opcode, text) ::
                  match handleText reprOf hasMessageCb codec (rs 0) text with
                  | none => []
                  | some codec => ioLoop fuel codec (fun i => rs (i + 1)) stream

def passed (codec : CryptoCodec) (rs : Nat → Readings) (stream : Bytes) : List (UInt8 × Str) :=
  ioLoop reprOf hasMessageCb (stream.length + 1) codec rs stream

def passes : CryptoCodec → (Nat → Readings) → List Frame → List (Kind × Str)
  | _, _, [] => []
  | codec, rs, f :: frames =>
      if f.kind = .close then []
      else
        match decodeUtf8 f.piece.payload with
        | none => []
        | some text =>
            (f.kind, text) ::
              match handleText reprOf hasMessageCb codec (rs 0) text with
              | none => []
              | some codec => passes codec (fun i => rs (i + 1)) frames

variable {reprOf hasMessageCb} {codec : CryptoCodec} {rs : Nat → Readings}

theorem value_close (kind : Kind) : kind.value = 0x8 ↔ kind = .close := by cases kind <;> decide

theorem value_control (kind : Kind) : kind.value &&& 0x8 = 0 ↔ kind.control = false := by cases kind <;> decide

theorem ioLoop_wire (frames : List Frame) : ∀ {fuel : Nat} (codec : CryptoCodec) (rs : Nat → Readings),
    frames.length < fuel → ioLoop reprOf hasMessageCb fuel codec rs (frames.flatMap (·.wire)) =
      (passes reprOf hasMessageCb codec rs frames).map fun p => (p.1.value, p.2) := by
  induction frames with
  | nil =>
      intro fuel codec rs hfuel
      obtain ⟨fuel, rfl⟩ := Nat.exists_eq_add_of_lt hfuel
      rfl
  | cons f frames ih =>
      intro fuel codec rs hfuel
      obtain ⟨fuel, rfl⟩ : ∃ n, fuel = n + 1 := ⟨fuel - 1, by simp only [List.length_cons] at hfuel; omega⟩
      have hrest : frames.length < fuel := by simpa using hfuel
      rw [List.flatMap_cons, ioLoop, recvFrame_wire, passes]
      by_cases hclose : f.kind = .close
      · simp only [(value_close f.kind).mpr hclose, if_pos hclose, if_true, List.map_nil]
      simp only [(value_close f.kind).not.mpr hclose, if_neg hclose, if_false]
      cases decodeUtf8 f.piece.payload with
      | none => rfl
      | some text =>
          simp only [List.map_cons]
          cases handleText reprOf hasMessageCb codec (rs 0) text with
          | none => rfl
          | some codec => simp only [ih codec _ hrest]

theorem length_stream (frames : List Frame) : frames.length ≤ (frames.flatMap (·.wire)).length := by
  induction frames with
  | nil => rfl
  | cons f frames ih =>
      simp only [List.flatMap_cons, List.length_append, List.length_cons, Frame.wire] at ih ⊢
      omega

theorem passed_wire (frames : List Frame) : passed reprOf hasMessageCb codec rs (frames.flatMap (·.wire)) =
    (passes reprOf hasMessageCb codec rs frames).map fun p => (p.1.value, p.2) :=
  ioLoop_wire frames codec rs (Nat.lt_succ_of_le (length_stream frames))

theorem handleText_nil (r : Readings) : handleText reprOf hasMessageCb codec r [] = none := rfl

end Loop

section Messages

structure Control where
  kind : Kind
  piece : Piece
  control : kind = .ping ∨ kind = .pong
  small : piece.payload.length < 126

-- A text message in one frame, or in several with control frames before each continuation.
structure Message where
  text : Str
  first : Piece
  more : List (List Control × Piece)
  whole : encodeUtf8 text = some (first.payload ++ more.flatMap (·.2.payload))

inductive Item where
  | message (m : Message)
  | control (c : Control)

structure Closing where
  piece : Piece
  small : piece.payload.length < 126

def Control.frame (c : Control) : Frame := ⟨true, c.kind, c.piece⟩

def continuations : List (List Control × Piece) → List Frame
  | [] => []
  | (controls, piece) :: more =>
      controls.map (·.frame) ++ ⟨more.isEmpty, .continuation, piece⟩ :: continuations more

def Item.frames : Item → List Frame
  | .message m => ⟨m.more.isEmpty, .text, m.first⟩ :: continuations m.more
  | .control c => [c.frame]

def Closing.frame (c : Closing) : Frame := ⟨true, .close, c.piece⟩

def clientFrames (items : List Item) (closing : Closing) : List Frame := items.flatMap (·.frames) ++ [closing.frame]

def stream (items : List Item) (closing : Closing) : Bytes := (clientFrames items closing).flatMap (·.wire)

def texts (items : List Item) : List Str := items.filterMap fun
  | .message m => some m.text
  | .control _ => none

structure SeesMessages (seen : List (UInt8 × Str)) (items : List Item) : Prop where
  messages : seen.map Prod.snd = texts items
  noControl : ∀ p ∈ seen, p.1 &&& 0x8 = 0

section Condition

variable (reprOf : Value → Str) (hasMessageCb : Bool)

def EndsThere (later : List Str) (more : List (List Control × Piece)) : Option CryptoCodec → Prop
  | none => later = []
  | some _ =>
      match more with
      | (c :: _, _) :: _ => decodeUtf8 c.piece.payload = none ∧ later = []
      | _ => later = [[]]

def ReadsThrough : CryptoCodec → (Nat → Readings) → List Item → Prop
  | _, _, [] => True
  | _, _, .control c :: items => decodeUtf8 c.piece.payload = none ∧ texts items = []
  | codec, rs, .message m :: items =>
      let handled := handleText reprOf hasMessageCb codec (rs 0) m.text
      if m.more = [] then
        match handled with
        | none => texts items = []
        | some codec => ReadsThrough codec (fun i => rs (i + 1)) items
      else (∀ part ∈ m.more, part.2.payload = []) ∧ EndsThere (texts items) m.more handled

end Condition

variable {reprOf : Value → Str} {hasMessageCb : Bool} {codec : CryptoCodec} {rs : Nat → Readings}

def Sees (seen : List (Kind × Str)) (messages : List Str) : Prop :=
  seen.map Prod.snd = messages ∧ ∀ p ∈ seen, p.1.control = false

theorem sees_nil {messages : List Str} : Sees [] messages ↔ messages = [] :=
  ⟨fun h => h.1.symm, fun h => ⟨h.symm, nofun⟩⟩

theorem sees_cons {kind : Kind} {text : Str} {seen : List (Kind × Str)} {messages : List Str} :
    Sees ((kind, text) :: seen) messages ↔
      kind.control = false ∧ ∃ later, messages = text :: later ∧ Sees seen later := by
  cases messages with
  | nil => simp [Sees]
  | cons message messages =>
      simp only [Sees, List.map_cons, List.cons.injEq, List.forall_mem_cons]
      constructor
      · rintro ⟨⟨rfl, hseen⟩, hkind, hall⟩
        exact ⟨hkind, messages, ⟨rfl, rfl⟩, hseen, hall⟩
      · rintro ⟨hkind, later, ⟨rfl, rfl⟩, hseen, hall⟩
        exact ⟨⟨rfl, hseen⟩, hkind, hall⟩

theorem whole_iff (m : Message) :
    decodeUtf8 m.first.payload = some m.text ↔ ∀ part ∈ m.more, part.2.payload = [] := by
  constructor
  · intro h part hpart
    have hsame := Option.some.inj ((encode_decode h).symm.trans m.whole)
    have hnil : m.more.flatMap (·.2.payload) = [] := List.self_eq_append_right.mp hsame
    exact List.flatMap_eq_nil_iff.mp hnil part hpart
  · intro h
    have hnil : m.more.flatMap (·.2.payload) = [] := List.flatMap_eq_nil_iff.mpr h
    have hwhole := m.whole
    rw [hnil, List.append_nil] at hwhole
    exact decode_encode hwhole

theorem texts_message (m : Message) (items : List Item) : texts (.message m :: items) = m.text :: texts items := rfl

theorem texts_control (c : Control) (items : List Item) : texts (.control c :: items) = texts items := rfl

theorem sees_control (c : Control) (frames : List Frame) (messages : List Str) :
    Sees (passes reprOf hasMessageCb codec rs (c.frame :: frames)) messages ↔
      decodeUtf8 c.piece.payload = none ∧ messages = [] := by
  have hopen : c.frame.kind ≠ .close := by
    change c.kind ≠ .close
    rcases c.control with h | h <;> simp [h]
  have hcontrol : c.frame.kind.control = true := by
    change c.kind.control = true
    rcases c.control with h | h <;> simp [h, Kind.control]
  rw [passes, if_neg hopen]
  cases hdecode : decodeUtf8 c.frame.piece.payload with
  | none =>
      have hnone : decodeUtf8 c.piece.payload = none := hdecode
      simp only [sees_nil, hnone, true_and]
  | some text =>
      have hsome : decodeUtf8 c.piece.payload = some text := hdecode
      simp only [sees_cons, hcontrol, hsome, Bool.true_eq_false, false_and, reduceCtorEq]

theorem sees_continuations {more : List (List Control × Piece)} (hmore : more ≠ [])
    (hempty : ∀ part ∈ more, part.2.payload = []) (frames : List Frame) (messages : List Str) :
    Sees (passes reprOf hasMessageCb codec rs (continuations more ++ frames)) messages ↔
      EndsThere messages more (some codec) := by
  obtain ⟨⟨controls, piece⟩, more, rfl⟩ := List.exists_cons_of_ne_nil hmore
  cases controls with
  | cons c controls => exact sees_control c _ messages
  | nil =>
      have hpayload : piece.payload = [] := hempty ([], piece) List.mem_cons_self
      have hdecode : decodeUtf8 [] = some [] := rfl
      simp only [continuations, List.map_nil, List.nil_append, List.cons_append, passes, reduceCtorEq, if_false,
        hpayload, hdecode, handleText_nil, sees_cons, sees_nil, Kind.control, true_and, exists_eq_right, EndsThere]

theorem sees_message (m : Message) (frames : List Frame) (later : List Str) :
    Sees (passes reprOf hasMessageCb codec rs ((Item.message m).frames ++ frames)) (m.text :: later) ↔
      (∀ part ∈ m.more, part.2.payload = []) ∧
        match handleText reprOf hasMessageCb codec (rs 0) m.text with
        | none => later = []
        | some codec =>
            Sees (passes reprOf hasMessageCb codec (fun i => rs (i + 1)) (continuations m.more ++ frames)) later := by
  rw [← whole_iff, Item.frames, List.cons_append, passes, if_neg (by simp)]
  cases hdecode : decodeUtf8 m.first.payload with
  | none => simp [sees_nil]
  | some text =>
      simp only [sees_cons, Kind.control, true_and, Option.some.injEq, List.cons.injEq]
      constructor
      · rintro ⟨_, ⟨rfl, rfl⟩, hseen⟩
        refine ⟨rfl, ?_⟩
        cases hhandled : handleText reprOf hasMessageCb codec (rs 0) m.text with
        | none => simpa [hhandled, sees_nil] using hseen
        | some codec => simpa [hhandled] using hseen
      · rintro ⟨rfl, hseen⟩
        refine ⟨later, ⟨rfl, rfl⟩, ?_⟩
        cases hhandled : handleText reprOf hasMessageCb codec (rs 0) m.text with
        | none => simpa [hhandled, sees_nil] using hseen
        | some codec => simpa [hhandled] using hseen

theorem sees_iff (closing : Closing) (items : List Item) : ∀ (codec : CryptoCodec) (rs : Nat → Readings),
    Sees (passes reprOf hasMessageCb codec rs (clientFrames items closing)) (texts items) ↔
      ReadsThrough reprOf hasMessageCb codec rs items := by
  induction items with
  | nil => exact fun codec rs => iff_of_true ⟨rfl, nofun⟩ trivial
  | cons item items ih =>
      intro codec rs
      have hframes : clientFrames (item :: items) closing = item.frames ++ clientFrames items closing := by
        simp only [clientFrames, List.flatMap_cons, List.append_assoc]
      rw [hframes]
      cases item with
      | control c =>
          rw [texts_control]
          exact sees_control c _ _
      | message m =>
          rw [texts_message, sees_message, ReadsThrough]
          cases hmore : m.more with
          | nil =>
              refine (and_iff_right nofun).trans ?_
              simp only [if_true, continuations, List.nil_append]
              cases handleText reprOf hasMessageCb codec (rs 0) m.text with
              | none => rfl
              | some codec => exact ih codec _
          | cons part more =>
              rw [if_neg (List.cons_ne_nil part more)]
              refine and_congr_right fun hempty => ?_
              cases handleText reprOf hasMessageCb codec (rs 0) m.text with
              | none => rfl
              | some codec => exact sees_continuations (List.cons_ne_nil part more) hempty _ _

theorem sees_messages_iff (reprOf : Value → Str) (hasMessageCb : Bool) (codec : CryptoCodec) (rs : Nat → Readings)
    (items : List Item) (closing : Closing) :
    SeesMessages (passed reprOf hasMessageCb codec rs (stream items closing)) items ↔
      ReadsThrough reprOf hasMessageCb codec rs items := by
  rw [← sees_iff closing items, stream, passed_wire]
  generalize passes reprOf hasMessageCb codec rs (clientFrames items closing) = seen
  have htexts : (seen.map fun p => (p.1.value, p.2)).map Prod.snd = seen.map Prod.snd := by
    rw [List.map_map]
    rfl
  constructor
  · rintro ⟨hmessages, hcontrol⟩
    exact ⟨htexts ▸ hmessages, fun p hp => (value_control p.1).mp (hcontrol _ (List.mem_map.mpr ⟨p, hp, rfl⟩))⟩
  · rintro ⟨hmessages, hcontrol⟩
    refine ⟨htexts.trans hmessages, fun p hp => ?_⟩
    obtain ⟨q, hq, rfl⟩ := List.mem_map.mp hp
    exact (value_control q.1).mpr (hcontrol q hq)

end Messages

section Sample

open RawRecv (zeroKey)

def fragmented : Message where
  text := str "ab"
  first := ⟨zeroKey, [97], by decide⟩
  more := [([], ⟨zeroKey, [98], by decide⟩)]
  whole := by decide

def unfragmented : Message where
  text := str "ab"
  first := ⟨zeroKey, [97, 98], by decide⟩
  more := []
  whole := by decide

def ping : Control := ⟨.ping, ⟨zeroKey, [], by decide⟩, .inl rfl, by decide⟩

def closing : Closing := ⟨⟨zeroKey, [0x03, 0xE8], by decide⟩, by decide⟩

def sampleReadings : Nat → Readings := fun _ => ⟨0, 0, Sending.sampleReadings⟩

def samplePassed (items : List Item) : List (UInt8 × Str) :=
  passed (fun _ => []) true Sending.sampleCodec sampleReadings (stream items closing)

-- A fragment and an empty PING go to decrypt as they come; neither is JSON, and the connection is gone.
theorem fragment_and_ping_passed :
    samplePassed [.message fragmented] = [(0x1, str "a")] ∧
      ¬ SeesMessages (samplePassed [.message fragmented]) [.message fragmented] ∧
      samplePassed [.control ping, .message unfragmented] = [(0x9, [])] ∧
      ¬ SeesMessages (samplePassed [.control ping, .message unfragmented]) [.control ping, .message unfragmented] := by
  have hfragment : samplePassed [.message fragmented] = [(0x1, str "a")] := by decide
  have hping : samplePassed [.control ping, .message unfragmented] = [(0x9, [])] := by decide
  refine ⟨hfragment, fun h => ?_, hping, fun h => ?_⟩
  · have hmessages := h.messages
    rw [hfragment] at hmessages
    exact absurd hmessages (by decide)
  · have hcontrol := h.noControl (0x9, [])
    rw [hping] at hcontrol
    exact absurd (hcontrol List.mem_cons_self) (by decide)

end Sample

end Ws.ManualServer
