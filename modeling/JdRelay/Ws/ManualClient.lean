import JdRelay.Api.Callback
import JdRelay.Ws.ManualServer
import JdRelay.Ws.SameHandshake
import JdRelay.Ws.SocketReader

namespace Ws.ManualClient
open Text Json Crypto RawWs Handshake ManualHandshake SameHandshake SocketReader
open Api.Callback (truthy)
open Text.Codecs (loadsBytes loadsBytes_encode)

section Upgrade

def lines : Str → List Str
  | [] => [[]]
  | [c] => [[c]]
  | c :: d :: rest =>
      if c = ofChar '\r' ∧ d = ofChar '\n' then [] :: lines rest else (lines (d :: rest)).modifyHead (c :: ·)

def header? : Str → Option (Str × Str)
  | c :: d :: rest =>
      if c = ofChar ':' ∧ d = ofChar ' ' then some ([], rest) else (header? (d :: rest)).map fun r => (c :: r.1, r.2)
  | _ => none

-- str.lower on a character of latin-1.
def lower (c : CodePoint) : CodePoint :=
  if (65 ≤ c.val ∧ c.val ≤ 90) ∨ (192 ≤ c.val ∧ c.val ≤ 222 ∧ c.val ≠ 215) then codePoint (c.val + 32) else c

def readHeaders (headers : Dict Str Str) : List Str → Dict Str Str
  | [] => headers
  | line :: rest =>
      match header? line with
      | some (key, value) => readHeaders (headers.insert (key.map lower) value) rest
      | none => if line = [] then headers else readHeaders headers rest

def parseHttpUpgrade (data : Bytes) : Option (Dict Str Str) :=
  match lines (data.map fun b => codePoint b.toNat) with
  | [] => none
  | first :: rest =>
      match first.splitOn (ofChar ' ') with
      | method :: path :: version :: _ =>
          some (readHeaders ((((∅ : Dict Str Str).insert (str "_method") method).insert (str "_path") path).insert
            (str "_version") version) rest)
      | _ => none

-- none where the connection is closed for want of a key.
def clientKey (data : Bytes) : Option Str :=
  ((parseHttpUpgrade data).bind fun headers => headers.lookup (str "sec-websocket-key")).filter fun key => key ≠ []

end Upgrade

section Prompt

-- Every call of recv gives all that is asked for, up to the end of the stream.
structure Prompt (s : Socket) : Prop where
  closed : s.closed = true
  ready : ∀ i, 16384 ≤ s.ready i

variable {s : Socket}

theorem recv_prompt (hs : Prompt s) {n : Nat} (hn : n ≤ 16384) :
    ∃ s', s.recv n = some (s.stream.take n, s') ∧ s'.stream = s.stream.drop n ∧ Prompt s' := by
  by_cases hnil : s.stream = []
  · exact ⟨s, by simp [Socket.recv, hnil, hs.closed], by simp [hnil], hs⟩
  · exact ⟨s.after n, Socket.recv_whole (hn.trans (hs.ready 0)) hnil, rfl, hs.closed, fun i => hs.ready (i + 1)⟩

theorem recvLength_prompt (hs : Prompt s) (length : Nat) :
    ∃ s', recvLength length s = some ((ManualServer.recvLength length s.stream).1, s') ∧
      s'.stream = (ManualServer.recvLength length s.stream).2 ∧ Prompt s' := by
  unfold recvLength ManualServer.recvLength
  split_ifs
  · obtain ⟨s', hrecv, hs'⟩ := recv_prompt hs (n := 2) (by decide)
    exact ⟨s', by rw [hrecv, Option.map_some], hs'⟩
  · obtain ⟨s', hrecv, hs'⟩ := recv_prompt hs (n := 8) (by decide)
    exact ⟨s', by rw [hrecv, Option.map_some], hs'⟩
  · exact ⟨s, rfl, rfl, hs⟩

theorem recvPayload_prompt (fuel : Nat) : ∀ (left : Nat) {s : Socket}, Prompt s →
    ∃ s', recvPayload fuel left s = some ((ManualServer.recvPayload fuel left s.stream).map Prod.fst, s') ∧
      ∀ r, ManualServer.recvPayload fuel left s.stream = some r → s'.stream = r.2 ∧ Prompt s' := by
  induction fuel with
  | zero =>
      intro left s hs
      cases left with
      | zero =>
          refine ⟨s, rfl, fun r h => ?_⟩
          cases h
          exact ⟨rfl, hs⟩
      | succ left => exact ⟨s, rfl, fun r h => (by cases h)⟩
  | succ fuel ih =>
      intro left s hs
      cases left with
      | zero =>
          refine ⟨s, rfl, fun r h => ?_⟩
          cases h
          exact ⟨rfl, hs⟩
      | succ left =>
          obtain ⟨s₁, hrecv, hstream, hs₁⟩ := recv_prompt hs (n := min (left + 1) 16384) (Nat.min_le_right _ _)
          simp only [recvPayload, ManualServer.recvPayload, hrecv, Option.bind_eq_bind, Option.bind_some]
          split_ifs with hnil
          · exact ⟨s₁, rfl, fun r h => (by cases h)⟩
          · have hdrop : s.stream.drop (s.stream.take (min (left + 1) 16384)).length = s₁.stream := by
              rw [hstream, List.length_take, Nat.min_def]
              split_ifs with hle
              · rfl
              · rw [List.drop_length, List.drop_eq_nil_of_le (Nat.le_of_not_le hle)]
            rw [hdrop]
            obtain ⟨s', hrest, hs'⟩ := ih (left + 1 - (s.stream.take (min (left + 1) 16384)).length) hs₁
            refine ⟨s', ?_, fun r h => ?_⟩
            · rw [hrest]
              simp [Option.map_map, Function.comp_def]
            · obtain ⟨r', hr', rfl⟩ := Option.map_eq_some_iff.mp h
              exact hs' r' hr'

theorem recvFrame_prompt (hs : Prompt s) :
    ∃ s', recvFrame s = ((ManualServer.recvFrame s.stream).elim .nothing fun r => .frame r.1.1 r.1.2, s') ∧
      ∀ r, ManualServer.recvFrame s.stream = some r → s'.stream = r.2 ∧ Prompt s' := by
  obtain ⟨s₁, hheader, hs₁, hprompt₁⟩ := recv_prompt hs (n := 2) (by decide)
  unfold recvFrame ManualServer.recvFrame
  rw [hheader]
  rcases hstream : s.stream with _ | ⟨first, _ | ⟨second, rest⟩⟩
  · exact ⟨s₁, rfl, fun r h => (by cases h)⟩
  · exact ⟨s₁, rfl, fun r h => (by cases h)⟩
  obtain ⟨s₂, hlength, hs₂, hprompt₂⟩ := recvLength_prompt hprompt₁ (second &&& 0x7F).toNat
  have hrest : s₁.stream = rest := by rw [hs₁, hstream]; rfl
  rw [hrest] at hlength hs₂
  simp only [List.take_succ_cons, List.take_zero, hlength]
  generalize ManualServer.recvLength (second &&& 0x7F).toNat rest = out at hs₂ ⊢
  obtain ⟨length, stream⟩ := out
  obtain ⟨s₃, hkey, hs₃, hprompt₃⟩ := recv_prompt hprompt₂ (n := 4) (by decide)
  obtain ⟨s₄, hpayload, hs₄⟩ := recvPayload_prompt length length hprompt₃
  simp only at hs₂
  rw [hs₂] at hkey hs₃
  simp only [hkey, hpayload, hs₃]
  rw [hs₃] at hpayload hs₄
  cases hread : ManualServer.recvPayload length length (stream.drop 4) with
  | none => exact ⟨s₄, rfl, fun r h => (by cases h)⟩
  | some r =>
      have hindex : ∀ i < r.1.length, i % 4 < (stream.take 4).length := fun i hi => by
        rw [hread, Option.map_some] at hpayload
        have hsize := congrArg List.length (recvPayload_stream hpayload).1
        rw [hs₃, List.length_append, List.length_drop] at hsize
        rw [List.length_take]
        omega
      refine ⟨s₄, ?_, fun r' h => ?_⟩
      · simp only [Option.map_some, unmasked, if_pos hindex, Option.elim_some]
      · obtain ⟨r'', hr'', rfl⟩ := Option.map_eq_some_iff.mp h
        exact hs₄ r'' (hread.trans hr'')

end Prompt

-- The connection's peer and surroundings, apart from the bytes: added is whether future.result came back in time.
structure Call where
  lib : Library
  own : Local
  cipher : Bytes → AesGcmCipher
  upgraded : Bool
  loop : Bool
  added : Bool
  hasMessageCb : Bool
  hasConnectCb : Bool
  running : Nat → Bool
  readings : Nat → ManualServer.Readings

inductive Scheduled where
  | addAgent (agentId projects : Value)
  | connectCb (agentId : Value) (connected : Bool)
  | removeAgent (agentId : Value)
  deriving DecidableEq

-- The local variables that finally looks at; loop is none as long as nothing has been assigned to it.
structure Locals where
  agentId : Value
  loop : Option Bool
  closed : Bool
  scheduled : List Scheduled

inductive LoopExit where
  | left
  | raised

structure Outcome where
  escaped : Bool
  closed : Bool
  scheduled : List Scheduled
  deriving DecidableEq

def codecOf (c : Call) (session : Session) : CryptoCodec where
  cipher := c.cipher session.sharedSecret
  signer := ⟨some session.signer, none⟩
  verifier := session.verifier
  guard := .fresh 300

section Body

variable (c : Call)

def ioLoop : Nat → Nat → CryptoCodec → Socket → Option LoopExit
  | 0, _, _, _ => none
  | fuel + 1, i, codec, s =>
      if !c.running i then some .left
      else
        match recvFrame s with
        | (.nothing, _) => some .left
        | (.frame opcode payload, s) =>
            if opcode = 0x8 then some .left
            else
              match decodeUtf8 payload with
              | none => some .raised
              | some text =>
                  match ManualServer.handleText c.lib.reprOf (c.hasMessageCb && c.loop) codec (c.readings i) text with
                  | none => some .raised
                  | some codec => ioLoop fuel (i + 1) codec s
        | _ => some .raised

def registering (session : Session) : List Scheduled :=
  if c.loop then
    .addAgent session.init.agentId session.init.projects ::
      (if c.added && c.hasConnectCb then [.connectCb session.init.agentId true] else [])
  else []

def looping (session : Session) : Locals := ⟨session.init.agentId, some c.loop, false, registering c session⟩

-- An exception of the loop is caught, so every way out of it has the same local variables.
def serve (fuel : Nat) (session : Session) (conn : Socket) : Option Locals :=
  if c.loop && !c.added then some (looping c session)
  else (ioLoop c fuel 0 (codecOf c session) conn).map fun _ => looping c session

def unbound (agentId : Value) (closed : Bool) : Locals := ⟨agentId, none, closed, []⟩

def received (fuel : Nat) (initRaw : Bytes) (conn : Socket) : Option Locals :=
  match handshake c.lib c.own initRaw with
  | .raised agentId => some (unbound agentId false)
  | .refused agentId => some (unbound agentId true)
  | .done session _ => serve c fuel session conn

def upgradedBody (fuel : Nat) (conn : Socket) : Option Locals :=
  if !c.upgraded then some (unbound unknown false)
  else
    match recvFrame conn with
    | (.nothing, _) => some (unbound unknown true)
    | (.frame _ initRaw, conn) => received c fuel initRaw conn
    | _ => some (unbound unknown false)

def tryBody (fuel : Nat) (conn : Socket) : Option Locals :=
  match conn.recv 4096 with
  | none => some (unbound unknown false)
  | some (data, conn) =>
      match clientKey data with
      | none => some (unbound unknown true)
      | some _ => upgradedBody c fuel conn

def removing (agentId : Value) : List Scheduled :=
  .removeAgent agentId :: (if c.hasConnectCb then [.connectCb agentId false] else [])

-- Reading loop raises where it is not bound, and conn.close() behind it is not reached.
def cleanup (v : Locals) : Outcome :=
  match v.loop with
  | none => ⟨true, v.closed, v.scheduled⟩
  | some loop =>
      if loop && truthy v.agentId && v.agentId ≠ unknown then ⟨false, true, v.scheduled ++ removing c v.agentId⟩
      else ⟨false, true, v.scheduled⟩

def handleClient (fuel : Nat) (conn : Socket) : Option Outcome := (tryBody c fuel conn).map (cleanup c)

end Body

structure CleanedUp (o : Outcome) : Prop where
  noEscape : o.escaped = false
  closed : o.closed = true
  paired : ∀ agentId, .removeAgent agentId ∈ o.scheduled ↔ ∃ projects, .addAgent agentId projects ∈ o.scheduled

structure Initiates (c : Call) (initRaw : Bytes) (fields : List (Str × Value)) : Prop where
  loaded : loadsBytes initRaw = some (.obj fields)
  accepted : Accepted c.lib c.own fields
  fits : KeysFit c.own

structure Upgrades (c : Call) (conn : Socket) (fields : List (Str × Value)) : Prop where
  upgraded : c.upgraded = true
  init : ∃ opcode initRaw, (recvFrame conn).1 = .frame opcode initRaw ∧ Initiates c initRaw fields

def Completes (c : Call) (conn : Socket) (fields : List (Str × Value)) : Prop :=
  ∃ data conn' key, conn.recv 4096 = some (data, conn') ∧ clientKey data = some key ∧ Upgrades c conn' fields

def Removable (agentId : Value) : Prop := truthy agentId = true ∧ agentId ≠ unknown

section Cleanup

variable {c : Call} {conn s : Socket} {fuel : Nat} {fields fields' : List (Str × Value)} {session : Session}

theorem ioLoop_ends (i : Nat) (codec : CryptoCodec) (h : s.stream.length < fuel) :
    ∃ e, ioLoop c fuel i codec s = some e := by
  induction fuel generalizing i codec s with
  | zero => exact absurd h (Nat.not_lt_zero _)
  | succ fuel ih =>
      rw [ioLoop]
      split
      · exact ⟨_, rfl⟩
      split
      · exact ⟨_, rfl⟩
      · rename_i opcode payload s' hread
        split
        · exact ⟨_, rfl⟩
        split
        · exact ⟨_, rfl⟩
        split
        · exact ⟨_, rfl⟩
        · have hshorter : s'.stream.length < s.stream.length := recvFrame_shorter hread
          exact ih _ _ (by omega)
      · exact ⟨_, rfl⟩

theorem serve_eq (h : conn.stream.length < fuel) : serve c fuel session conn = some (looping c session) := by
  obtain ⟨e, he⟩ := ioLoop_ends (c := c) 0 (codecOf c session) h
  unfold serve
  split
  · rfl
  · rw [he, Option.map_some]

inductive Ends (c : Call) (P : List (Str × Value) → Prop) : Option Locals → Prop
  | early (agentId : Value) (closed : Bool) (h : ∀ fields, ¬ P fields) : Ends c P (some (unbound agentId closed))
  | late (fields : List (Str × Value)) (session : Session) (h : P fields) (hinit : session.init = ofFields fields) :
      Ends c P (some (looping c session))

theorem Ends.imp {P Q : List (Str × Value) → Prop} {v : Option Locals} (h : Ends c P v) (hPQ : ∀ fields, P fields ↔ Q fields) :
    Ends c Q v := by
  cases h with
  | early agentId closed h => exact .early agentId closed fun fields hQ => h fields ((hPQ fields).mpr hQ)
  | late fields session h hinit => exact .late fields session ((hPQ fields).mp h) hinit

theorem initiates_iff {initRaw : Bytes} : Initiates c initRaw fields ↔
    ∃ session ack, handshake c.lib c.own initRaw = .done session ack ∧ session.init = ofFields fields ∧
      loadsBytes initRaw = some (.obj fields) := by
  constructor
  · rintro ⟨hloads, ⟨session, ack, h⟩, hfits⟩
    exact ⟨session, ack, handshake_done.mpr ⟨fields, hloads, h, (keysFit_iff h).mp hfits⟩, h.init_eq, hloads⟩
  · rintro ⟨session, ack, hdone, -, hloads⟩
    obtain ⟨fields', hloads', h, hfits⟩ := handshake_done.mp hdone
    rw [hloads] at hloads'
    cases hloads'
    exact ⟨hloads, ⟨session, ack, h⟩, (keysFit_iff h).mpr hfits⟩

theorem received_ends (initRaw : Bytes) (hfuel : conn.stream.length < fuel) :
    Ends c (Initiates c initRaw) (received c fuel initRaw conn) := by
  unfold received
  split
  · rename_i agentId hraised
    refine .early agentId false fun fields h => ?_
    obtain ⟨session, ack, hdone, -⟩ := initiates_iff.mp h
    cases hraised.symm.trans hdone
  · rename_i agentId hrefused
    refine .early agentId true fun fields h => ?_
    obtain ⟨session, ack, hdone, -⟩ := initiates_iff.mp h
    cases hrefused.symm.trans hdone
  · rename_i session ack hdone
    obtain ⟨fields, hloads, h, hfits⟩ := handshake_done.mp hdone
    rw [serve_eq hfuel]
    exact .late fields session ⟨hloads, ⟨session, ack, h⟩, (keysFit_iff h).mpr hfits⟩ h.init_eq

theorem upgradedBody_ends (hfuel : conn.stream.length < fuel) :
    Ends c (Upgrades c conn) (upgradedBody c fuel conn) := by
  unfold upgradedBody
  split
  · rename_i hupgraded
    refine .early unknown false fun fields h => ?_
    simp [h.upgraded] at hupgraded
  rename_i hupgraded
  have hno : (∀ opcode initRaw, (recvFrame conn).1 ≠ .frame opcode initRaw) → ∀ fields, ¬ Upgrades c conn fields :=
    fun hne fields h => by
      obtain ⟨opcode, initRaw, hread, -⟩ := h.init
      exact hne opcode initRaw hread
  split
  · rename_i hread
    exact .early unknown true (hno fun opcode initRaw => by rw [hread]; exact nofun)
  · rename_i opcode initRaw conn' hread
    have hshorter : conn'.stream.length < conn.stream.length := recvFrame_shorter hread
    refine (received_ends initRaw (hshorter.trans hfuel)).imp fun fields => ⟨fun h => ⟨?_, opcode, initRaw, ?_, h⟩, ?_⟩
    · simpa using hupgraded
    · rw [hread]
    · rintro ⟨-, opcode', initRaw', hread', h⟩
      rw [hread] at hread'
      cases hread'
      exact h
  · rename_i hnothing hframe
    refine .early unknown false (hno fun opcode initRaw hread => ?_)
    exact hframe opcode initRaw (recvFrame conn).2 (Prod.ext hread rfl)

theorem tryBody_ends (hfuel : conn.stream.length < fuel) : Ends c (Completes c conn) (tryBody c fuel conn) := by
  unfold tryBody
  split
  · rename_i hrecv
    refine .early unknown false fun fields h => ?_
    obtain ⟨data, conn', key, hrecv', -⟩ := h
    cases hrecv.symm.trans hrecv'
  rename_i data conn' hrecv
  split
  · rename_i hkey
    refine .early unknown true fun fields h => ?_
    obtain ⟨data', conn'', key, hrecv', hkey', -⟩ := h
    cases hrecv.symm.trans hrecv'
    cases hkey.symm.trans hkey'
  · rename_i key hkey
    have hconn : conn'.stream.length < fuel := by
      have hlength := congrArg List.length (Socket.recv_stream hrecv).1
      rw [List.length_append] at hlength
      omega
    refine (upgradedBody_ends hconn).imp fun fields => ⟨fun h => ⟨data, conn', key, hrecv, hkey, h⟩, ?_⟩
    rintro ⟨data', conn'', key', hrecv', -, h⟩
    cases hrecv.symm.trans hrecv'
    exact h

theorem Completes.unique (h : Completes c conn fields) (h' : Completes c conn fields') : fields = fields' := by
  obtain ⟨data, conn₁, key, hrecv, -, -, opcode, initRaw, hread, hloads, -⟩ := h
  obtain ⟨data', conn₁', key', hrecv', -, -, opcode', initRaw', hread', hloads', -⟩ := h'
  cases hrecv.symm.trans hrecv'
  cases hread.symm.trans hread'
  cases hloads.symm.trans hloads'
  rfl

theorem not_cleanedUp_unbound (agentId : Value) (closed : Bool) : ¬ CleanedUp (cleanup c (unbound agentId closed)) :=
  fun h => by cases h.noEscape

theorem removeAgent_mem_removing {agentId agentId' : Value} :
    .removeAgent agentId ∈ removing c agentId' ↔ agentId = agentId' := by
  cases hcb : c.hasConnectCb <;> simp [removing, hcb]

theorem addAgent_not_mem_removing {agentId agentId' projects : Value} :
    .addAgent agentId projects ∉ removing c agentId' := by
  cases hcb : c.hasConnectCb <;> simp [removing, hcb]

theorem mem_registering {agentId : Value} (hloop : c.loop = true) : .removeAgent agentId ∉ registering c session ∧
    ((∃ projects, .addAgent agentId projects ∈ registering c session) ↔ agentId = session.init.agentId) := by
  cases hcb : c.added && c.hasConnectCb <;> simp [registering, hloop, hcb]

theorem removes_iff {agentId : Value} :
    (c.loop && truthy agentId && decide (agentId ≠ unknown)) = true ↔ c.loop = true ∧ Removable agentId := by
  simp [Removable, and_assoc]

theorem cleanup_removing (hloop : c.loop = true) (h : Removable session.init.agentId) :
    cleanup c (looping c session) = ⟨false, true, registering c session ++ removing c session.init.agentId⟩ :=
  if_pos (removes_iff.mpr ⟨hloop, h⟩)

theorem cleanup_keeping (h : ¬ (c.loop = true ∧ Removable session.init.agentId)) :
    cleanup c (looping c session) = ⟨false, true, registering c session⟩ :=
  if_neg fun hremoves => h (removes_iff.mp hremoves)

theorem cleanedUp_looping : CleanedUp (cleanup c (looping c session)) ↔
    c.loop = false ∨ Removable session.init.agentId := by
  cases hloop : c.loop with
  | false =>
      have hnone : registering c session = [] := by simp [registering, hloop]
      rw [cleanup_keeping (by simp [hloop]), hnone]
      exact iff_of_true ⟨rfl, rfl, fun agentId => by simp⟩ (.inl rfl)
  | true =>
      by_cases hremovable : Removable session.init.agentId
      · rw [cleanup_removing hloop hremovable]
        refine iff_of_true ⟨rfl, rfl, fun agentId => ?_⟩ (.inr hremovable)
        simp only [List.mem_append, (mem_registering hloop).1, removeAgent_mem_removing, addAgent_not_mem_removing,
          false_or, or_false, (mem_registering hloop).2]
      · rw [cleanup_keeping fun h => hremovable h.2]
        refine iff_of_false (fun h => ?_) (by simp [hremovable])
        exact (mem_registering hloop).1 ((h.paired session.init.agentId).mpr ((mem_registering hloop).2.mpr rfl))

theorem client_cleaned_iff (c : Call) (conn : Socket) (hfuel : conn.stream.length < fuel) :
    ∃ o, handleClient c fuel conn = some o ∧
      (CleanedUp o ↔ ∃ fields, Completes c conn fields ∧
        (c.loop = false ∨ Removable (Python.get fields "agent_id" .null))) := by
  have hends : Ends c (Completes c conn) (tryBody c fuel conn) := tryBody_ends hfuel
  unfold handleClient
  generalize tryBody c fuel conn = v at hends ⊢
  cases hends with
  | early agentId closed h =>
      refine ⟨_, rfl, iff_of_false (not_cleanedUp_unbound agentId closed) ?_⟩
      rintro ⟨fields, hcompletes, -⟩
      exact h fields hcompletes
  | late fields session h hinit =>
      refine ⟨_, rfl, cleanedUp_looping.trans ?_⟩
      rw [hinit]
      constructor
      · exact fun hremovable => ⟨fields, h, hremovable⟩
      · rintro ⟨fields', h', hremovable⟩
        rwa [h.unique h']

end Cleanup

section Sample

open Agent (bytes)

def sampleCall : Call where
  lib := sampleLibrary
  own := sampleLocal
  cipher := fun _ => Sending.sampleCodec.cipher
  upgraded := true
  loop := true
  added := true
  hasMessageCb := true
  hasConnectCb := true
  running := fun _ => true
  readings := ManualServer.sampleReadings

def clientSocket (request rest : Bytes) (h : 0 < request.length) : Socket where
  stream := request ++ rest
  ready i := if i = 0 then request.length else 16384
  ready_pos i := by split <;> omega
  closed := true

def badRequest : Bytes := bytes (str "GET /\r\n\r\n")

def upgradeRequest : Bytes := bytes (str "GET / HTTP/1.1\r\nSec-WebSocket-Key: x\r\n\r\n")

def letterFrame : Frame := ⟨.text, some RawRecv.zeroKey, [120], .short, by decide⟩

def badUpgrade : Socket := clientSocket badRequest [] (by decide)

def badJson : Socket := clientSocket upgradeRequest letterFrame.wire (by decide)

theorem samples_read : clientKey upgradeRequest = some (str "x") ∧
    handleClient sampleCall 12 badUpgrade = some ⟨true, true, []⟩ ∧
      handleClient sampleCall 60 badJson = some ⟨true, false, []⟩ := by
  decide +kernel

theorem genuine_key : clientKey upgradeRequest = some (str "x") := samples_read.1

-- The exception that escapes is an UnboundLocalError; the second connection is left open.
theorem refused_client_escapes :
    handleClient sampleCall 12 badUpgrade = some ⟨true, true, []⟩ ∧
      handleClient sampleCall 60 badJson = some ⟨true, false, []⟩ ∧
        ¬ CleanedUp ⟨true, true, []⟩ ∧ ¬ CleanedUp ⟨true, false, []⟩ := by
  obtain ⟨-, hupgrade, hjson⟩ := samples_read
  exact ⟨hupgrade, hjson, fun h => (by cases h.noEscape), fun h => (by cases h.noEscape)⟩

def initData : Bytes := bytes (sampleText "HANDSHAKE_INIT")

theorem initData_encoded : encodeUtf8 (sampleText "HANDSHAKE_INIT") = some initData := by
  obtain ⟨-, -, data, hdata⟩ := sample_accepted "HANDSHAKE_INIT" (by decide)
  rw [initData, bytes, hdata, Option.getD_some]

def initFrame : Frame := ⟨.text, some RawRecv.zeroKey, initData, .medium, by decide +kernel⟩

def genuineClient : Socket := clientSocket upgradeRequest (clientWire 0x80 initFrame) (by decide)

theorem clientSocket_completes {c : Call} {request : Bytes} (hpos : 0 < request.length) (hsize : request.length ≤ 4096)
    {key : Str} (hkey : clientKey request = some key) {f : Frame} (hmasked : f.maskKey.isSome)
    (hupgraded : c.upgraded = true) {fields : List (Str × Value)} (hinit : Initiates c f.payload fields) :
    Completes c (clientSocket request (clientWire 0x80 f) hpos) fields := by
  have hne : request ++ clientWire 0x80 f ≠ [] := List.append_ne_nil_of_left_ne_nil (List.ne_nil_of_length_pos hpos) _
  have hrecv : (clientSocket request (clientWire 0x80 f) hpos).recv 4096 =
      some (request, (clientSocket request (clientWire 0x80 f) hpos).after request.length) := by
    simp only [Socket.recv, clientSocket, if_neg hne, if_true, Nat.min_eq_right hsize, List.take_left]
  have hstream : ((clientSocket request (clientWire 0x80 f) hpos).after request.length).stream =
      clientWire 0x80 f ++ [] := by
    simp [clientSocket]
  have hwhole : HeaderWhole f.form ((clientSocket request (clientWire 0x80 f) hpos).after request.length) := by
    refine ⟨by simp [clientSocket], ?_⟩
    cases f.form <;> simp [clientSocket, LengthForm.width]
  obtain ⟨s', hread, -⟩ := recvFrame_whole hmasked hstream hwhole
  exact ⟨request, _, key, hrecv, hkey, hupgraded, f.opcode.value, f.payload, congrArg Prod.fst hread, hinit⟩

theorem genuine_initiates : Initiates sampleCall initFrame.payload (sampleFields "HANDSHAKE_INIT") where
  loaded := by
    dsimp only [initFrame]
    exact loadsBytes_encode initData_encoded (sample_accepted "HANDSHAKE_INIT" (by decide)).2.1
  accepted := (sample_accepted "HANDSHAKE_INIT" (by decide)).1
  fits := sampleLocal_fits

theorem genuine_cleaned : ∃ o, handleClient sampleCall (genuineClient.stream.length + 1) genuineClient = some o ∧
    CleanedUp o := by
  obtain ⟨o, ho, hiff⟩ := client_cleaned_iff sampleCall genuineClient (Nat.lt_add_one _)
  have hcompletes : Completes sampleCall genuineClient (sampleFields "HANDSHAKE_INIT") :=
    clientSocket_completes _ (by decide) genuine_key rfl rfl genuine_initiates
  have hremovable : Removable (Python.get (sampleFields "HANDSHAKE_INIT") "agent_id" .null) := ⟨by decide, by decide⟩
  exact ⟨o, ho, hiff.mpr ⟨_, hcompletes, .inr hremovable⟩⟩

end Sample

end Ws.ManualClient
