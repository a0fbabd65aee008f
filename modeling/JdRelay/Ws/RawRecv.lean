import JdRelay.Ws.RawWs

namespace Ws.RawRecv
open Text Python RawWs

inductive Received where
  | text (s : Str)
  | closed
  | raised (e : Error)

structure Call where
  written : List Bytes
  result : Received
  unread : List Bytes

def decoded (payload : Bytes) : Received :=
  match decodeUtf8 payload with
  | some s => .text s
  | none => .raised .unicodeDecodeError

-- The list is what reader.read returns, call by call; behind it the peer has closed.
def recvLoop (buf : Bytes) : List Bytes → Call
  | [] => ⟨[], .closed, []⟩
  | chunk :: chunks =>
      if chunk = [] then ⟨[], .closed, chunks⟩
      else
        match decodeFrame (buf ++ chunk) with
        | .error e => ⟨[], .raised e, chunks⟩
        | .ok none => recvLoop (buf ++ chunk) chunks
        | .ok (some (opcode, payload)) =>
            if opcode = .close then ⟨[], .closed, chunks⟩
            else if opcode = .ping then
              let call := recvLoop [] chunks
              { call with written := encodeFrame payload .pong :: call.written }
            else if opcode = .text ∨ opcode = .binary then ⟨[], decoded payload, chunks⟩
            else recvLoop [] chunks

def recv (chunks : List Bytes) : Call := recvLoop [] chunks

inductive Event where
  | returned (text : Str)
  | wrote (frame : Bytes)
  deriving DecidableEq

inductive Ending where
  | closed
  | raised (e : Error)
  deriving DecidableEq

structure Session where
  events : List Event
  ending : Ending
  deriving DecidableEq

def Session.prepend (events : List Event) (session : Session) : Session :=
  { session with events := events ++ session.events }

@[simp] theorem prepend_nil : Session.prepend [] = id := rfl

@[simp] theorem prepend_prepend (session : Session) (before events : List Event) :
    (session.prepend events).prepend before = session.prepend (before ++ events) := by
  simp [Session.prepend]

def Call.goOn (next : List Bytes → Option Session) (call : Call) : Option Session :=
  match call.result with
  | .text s => (next call.unread).map (.prepend (call.written.map .wrote ++ [.returned s]))
  | .closed => some ⟨call.written.map .wrote, .closed⟩
  | .raised e => some ⟨call.written.map .wrote, .raised e⟩

-- At most so many calls of recv, one after the other until one of them returns None or raises.
def successiveRecv : Nat → List Bytes → Option Session
  | 0, _ => none
  | calls + 1, chunks => (recv chunks).goOn (successiveRecv calls)

def effect (f : Frame) : List Event :=
  match f.opcode with
  | .text | .binary => (decodeUtf8 f.payload).toList.map .returned
  | .ping => [.wrote (encodeFrame f.payload .pong)]
  | _ => []

structure ClientFrame (f : Frame) : Prop where
  masked : f.maskKey.isSome
  opcode : f.opcode ∈ [Opcode.text, .binary, .ping, .pong]
  utf8 : (decodeUtf8 f.payload).isSome

def size (frames : List Frame) : Nat := (frames.map (·.wire.length)).sum

-- held is the length of the buffer. A chunk that ends a frame holds behind it nothing but whole PONG frames.
def KeepsFrames (held : Nat) : List Frame → List Bytes → Prop
  | _, [] => True
  | [], _ :: _ => True
  | f :: frames, chunk :: chunks =>
      if held + chunk.length < f.wire.length then KeepsFrames (held + chunk.length) (f :: frames) chunks
      else ∃ pongs rest, frames = pongs ++ rest ∧ (∀ g ∈ pongs, g.opcode = .pong) ∧
        held + chunk.length = f.wire.length + size pongs ∧ KeepsFrames 0 rest chunks

def stream (frames : List Frame) : Bytes := frames.flatMap (·.wire)

theorem length_stream (frames : List Frame) : (stream frames).length = size frames := by
  simp [stream, size, List.length_flatMap]

theorem effect_pongs {pongs : List Frame} (h : ∀ g ∈ pongs, g.opcode = .pong) :
    pongs.flatMap effect = [] := by
  refine List.flatMap_eq_nil_iff.mpr fun g hg => ?_
  simp [effect, h g hg]

def resume (calls : Nat) (buf : Bytes) (chunks : List Bytes) : Option Session :=
  (recvLoop buf chunks).goOn (successiveRecv calls)

theorem goOn_written (next : List Bytes → Option Session) (call : Call) (frame : Bytes) :
    Call.goOn next { call with written := frame :: call.written } =
      (call.goOn next).map (.prepend [.wrote frame]) := by
  obtain ⟨written, result, unread⟩ := call
  cases result with
  | text s => simp only [Call.goOn, Option.map_map, Function.comp_def, prepend_prepend]; rfl
  | closed => rfl
  | raised e => rfl

section Step

variable {calls : Nat} {buf chunk suffix : Bytes} {chunks : List Bytes} {f : Frame}

theorem resume_incomplete (hchunk : chunk ≠ []) (h : buf ++ chunk <+: f.wire ++ suffix)
    (hlen : (buf ++ chunk).length < f.wire.length) :
    resume calls buf (chunk :: chunks) = resume calls (buf ++ chunk) chunks := by
  rw [resume, recvLoop, if_neg hchunk, Frame.decodeFrame_arrived h, if_pos hlen]
  rfl

theorem resume_drops (hchunk : chunk ≠ []) (h : buf ++ chunk <+: f.wire ++ suffix)
    (hlen : f.wire.length ≤ (buf ++ chunk).length) :
    resume calls buf (chunk :: chunks) = resume calls [] (f.wire :: chunks) := by
  have halone : [] ++ f.wire <+: f.wire ++ [] := by simp
  rw [resume, resume, recvLoop, recvLoop, if_neg hchunk, if_neg f.wire_ne_nil, Frame.decodeFrame_arrived h,
    Frame.decodeFrame_arrived halone, if_neg (Nat.not_lt.mpr hlen), if_neg (by simp)]

theorem recvLoop_wire (chunks : List Bytes) :
    recvLoop [] (f.wire :: chunks) =
      if f.opcode = .close then ⟨[], .closed, chunks⟩
      else if f.opcode = .ping then
        let call := recvLoop [] chunks
        { call with written := encodeFrame f.payload .pong :: call.written }
      else if f.opcode = .text ∨ f.opcode = .binary then ⟨[], decoded f.payload, chunks⟩
      else recvLoop [] chunks := by
  have halone : [] ++ f.wire <+: f.wire ++ [] := by simp
  rw [recvLoop, if_neg f.wire_ne_nil, Frame.decodeFrame_arrived halone, if_neg (by simp)]

theorem resume_wire (hf : ClientFrame f) (hcalls : chunks.length < calls) :
    ∃ left ≥ chunks.length,
      resume calls [] (f.wire :: chunks) = (resume left [] chunks).map (.prepend (effect f)) := by
  obtain ⟨s, hs⟩ := Option.isSome_iff_exists.mp hf.utf8
  obtain ⟨left, rfl⟩ := Nat.exists_eq_add_of_lt (Nat.zero_lt_of_lt hcalls)
  have htext : Call.goOn (successiveRecv (0 + left + 1)) ⟨[], decoded f.payload, chunks⟩ =
      (resume left [] chunks).map (.prepend [.returned s]) := by
    simp only [decoded, hs, Call.goOn, Nat.zero_add]
    rfl
  have hopcode := hf.opcode
  rw [resume, recvLoop_wire]
  cases hop : f.opcode with
  | text => exact ⟨left, by omega, by simpa [effect, hop, hs] using htext⟩
  | binary => exact ⟨left, by omega, by simpa [effect, hop, hs] using htext⟩
  | close => simp [hop] at hopcode
  | ping =>
      refine ⟨_, hcalls.le, ?_⟩
      simp only [effect, hop]
      exact goOn_written _ _ _
  | pong =>
      refine ⟨_, hcalls.le, ?_⟩
      simp [effect, hop, resume]

end Step

theorem arrived_stream {f : Frame} {frames : List Frame} {buf chunk : Bytes} {chunks : List Bytes}
    (h : buf ++ (chunk :: chunks).flatten = stream (f :: frames)) :
    buf ++ chunk <+: f.wire ++ stream frames :=
  ⟨chunks.flatten, by simpa [stream] using h⟩

-- The buffer never holds a whole frame between two reads: that is what lets recv forget it at each frame's end.
theorem resume_keeps {chunks : List Bytes} :
    ∀ {buf : Bytes} {frames : List Frame} {calls : Nat}, (∀ chunk ∈ chunks, chunk ≠ []) →
      (∀ f ∈ frames, ClientFrame f) → buf ++ chunks.flatten = stream frames →
      (∀ f ∈ frames.head?, buf.length < f.wire.length) → KeepsFrames buf.length frames chunks →
      chunks.length ≤ calls → resume calls buf chunks = some ⟨frames.flatMap effect, .closed⟩ := by
  induction chunks with
  | nil =>
      intro buf frames calls _ _ hstream hbuf _ _
      cases frames with
      | nil => rfl
      | cons f frames =>
          have hlen := congrArg List.length hstream
          have hpartial := hbuf f (by simp)
          simp only [stream, List.flatten_nil, List.append_nil, List.flatMap_cons, List.length_append] at hlen
          omega
  | cons chunk chunks ih =>
      intro buf frames calls hne hclient hstream hbuf hkeeps hcalls
      have hchunk := hne chunk (by simp)
      have hne' : ∀ c ∈ chunks, c ≠ [] := fun c hc => hne c (by simp [hc])
      have hchunks : chunks.length < calls := hcalls
      cases frames with
      | nil => simp [stream, hchunk] at hstream
      | cons f frames =>
          have hprefix := arrived_stream hstream
          have hwhole : (buf ++ chunk) ++ chunks.flatten = stream (f :: frames) := by simpa using hstream
          rw [KeepsFrames, ← List.length_append] at hkeeps
          split at hkeeps
          · rename_i hlen
            rw [resume_incomplete hchunk hprefix hlen]
            exact ih hne' hclient hwhole (by simpa using hlen) hkeeps hchunks.le
          · rename_i hlen
            obtain ⟨pongs, rest, rfl, hpongs, hsize, hrest⟩ := hkeeps
            have hsplit : (buf ++ chunk) ++ chunks.flatten = (f.wire ++ stream pongs) ++ stream rest := by
              simpa [stream] using hwhole
            have hlength : (buf ++ chunk).length = (f.wire ++ stream pongs).length := by
              rw [hsize, List.length_append, length_stream]
            have htail := (List.append_inj hsplit hlength).2
            obtain ⟨left, hleft, hone⟩ := resume_wire (hclient f (by simp)) hchunks
            have hmore : resume left [] chunks = _ := ih hne' (fun g hg => hclient g (by simp [hg])) htail
              (fun g _ => List.length_pos_iff.mpr g.wire_ne_nil) hrest hleft
            rw [resume_drops hchunk hprefix (Nat.not_lt.mp hlen), hone, hmore]
            simp [Session.prepend, effect_pongs hpongs]

theorem recvLoop_unread {chunks : List Bytes} {s : Str} :
    ∀ {buf : Bytes}, (recvLoop buf chunks).result = .text s →
      (recvLoop buf chunks).unread.length < chunks.length := by
  induction chunks with
  | nil => intro buf h; cases h
  | cons chunk chunks ih =>
      intro buf h
      rw [recvLoop] at h ⊢
      split_ifs at h ⊢ with hchunk
      cases hdecode : decodeFrame (buf ++ chunk) with
      | error e => simp [hdecode] at h
      | ok found =>
          rw [hdecode] at h
          cases found with
          | none => exact (ih h).trans (Nat.lt_succ_self _)
          | some frame =>
              obtain ⟨opcode, payload⟩ := frame
              cases opcode with
              | close => cases h
              | text => exact Nat.lt_succ_self _
              | binary => exact Nat.lt_succ_self _
              | ping => exact (ih h).trans (Nat.lt_succ_self _)
              | pong => exact (ih h).trans (Nat.lt_succ_self _)

theorem session_exists {calls : Nat} : ∀ {chunks : List Bytes}, chunks.length < calls →
    (successiveRecv calls chunks).isSome := by
  induction calls with
  | zero => intro chunks h; exact absurd h (Nat.not_lt_zero _)
  | succ calls ih =>
      intro chunks h
      rw [successiveRecv, Call.goOn]
      split
      · rename_i s hresult
        have hunread : (recv chunks).unread.length < calls :=
          (recvLoop_unread hresult).trans_le (Nat.lt_succ_iff.mp h)
        rw [Option.isSome_map]
        exact ih hunread
      · rfl
      · rfl

def Delivers (frames : List Frame) (chunks : List Bytes) : Prop :=
  successiveRecv (chunks.length + 1) chunks = some ⟨frames.flatMap effect, .closed⟩

theorem delivers_of_keepsFrames {frames : List Frame} {chunks : List Bytes}
    (hclient : ∀ f ∈ frames, ClientFrame f) (hne : ∀ chunk ∈ chunks, chunk ≠ [])
    (hstream : chunks.flatten = stream frames) (hkeeps : KeepsFrames 0 frames chunks) :
    Delivers frames chunks :=
  resume_keeps hne hclient hstream (fun f _ => List.length_pos_iff.mpr f.wire_ne_nil) hkeeps le_rfl

def zeroKey : MaskKey := ⟨[0, 0, 0, 0], rfl⟩

def textA : Frame := ⟨.text, some zeroKey, [97], .short, by decide⟩
def textB : Frame := ⟨.text, some ⟨[0, 5, 0x81, 0x01], rfl⟩, [98], .short, by decide⟩
def pingA : Frame := ⟨.ping, some zeroKey, [97], .medium, by decide⟩
def pongA : Frame := ⟨.pong, some zeroKey, [97], .short, by decide⟩

theorem client_samples : ∀ f ∈ [textA, textB, pingA, pongA], ClientFrame f := by
  intro f hf
  simp only [List.mem_cons, List.not_mem_nil, or_false] at hf
  rcases hf with rfl | rfl | rfl | rfl <;> exact ⟨by decide, by decide, by decide⟩

def cutChunks : List Bytes := [textA.wire.take 3, textA.wire.drop 3, stream [pingA, pongA], textB.wire]

theorem cutChunks_keepsFrames : KeepsFrames 0 [textA, pingA, pongA, textB] cutChunks := by
  refine ⟨[], _, rfl, by simp, by decide, ?_⟩
  exact ⟨[pongA], _, rfl, by decide, by decide, [], _, rfl, by simp, by decide, trivial⟩

theorem delivers_cutChunks : Delivers [textA, pingA, pongA, textB] cutChunks := by
  have hclient : ∀ f ∈ [textA, pingA, pongA, textB], ClientFrame f := fun f hf =>
    client_samples f (by simp only [List.mem_cons] at hf ⊢; tauto)
  exact delivers_of_keepsFrames hclient (by decide) (by decide) cutChunks_keepsFrames

theorem second_frame_lost :
    (∀ f ∈ [textA, textB], ClientFrame f) ∧ ¬ Delivers [textA, textB] [stream [textA, textB]] :=
  ⟨fun f hf => client_samples f (by simp only [List.mem_cons] at hf ⊢; tauto), by unfold Delivers; decide⟩

-- Bytes lost in front can leave what reads as the same frame: KeepsFrames looks at lengths and kinds only.
example : Delivers [textA, textB] [textA.wire ++ textB.wire.take 4, textB.wire.drop 4] := by
  unfold Delivers
  decide

end Ws.RawRecv
