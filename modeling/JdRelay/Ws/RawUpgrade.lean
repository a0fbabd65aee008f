import JdRelay.Ws.RawRecv
import JdRelay.Ws.UpgradeRequest

namespace Ws.RawUpgrade
open Text RawWs RawRecv ManualClient
open UpgradeRequest (latin1 latin1_append crlf lines_line)

def wsGuid : Str := str "258EAFA5-E914-47DA-95CA-C5AB0DC85B11"

section Upgrade

variable (sha1 : Bytes → Bytes)

-- The key comes out of latin-1 text, so it has an encoding.
def computeAcceptKey (clientKey : Str) : Str := Base64.encode (sha1 (Agent.bytes (clientKey ++ wsGuid)))

def buildUpgradeResponse (acceptKey : Str) : Bytes :=
  Agent.bytes (str "HTTP/1.1 101 Switching Protocols\r\n" ++ str "Upgrade: websocket\r\n" ++ str "Connection: Upgrade\r\n" ++
    str "Sec-WebSocket-Accept: " ++ acceptKey ++ str "\r\n" ++ str "\r\n")

def headEnd : Bytes := crlf ++ crlf

def Enough (data : Bytes) : Prop := headEnd <:+: data ∨ 8192 ≤ data.length

instance : DecidablePred Enough := fun _ => inferInstanceAs (Decidable (_ ∨ _))

-- data and the chunks that the reader still holds, none where the peer closes first.
def readHead (data : Bytes) : List Bytes → Option (Bytes × List Bytes)
  | [] => if Enough data then some (data, []) else none
  | chunk :: chunks =>
      if Enough data then some (data, chunk :: chunks)
      else if chunk = [] then none
      else readHead (data ++ chunk) chunks

structure Upgraded where
  written : List Bytes
  accepted : Bool
  unread : List Bytes
  deriving DecidableEq

def answer (data : Bytes) (unread : List Bytes) : Upgraded :=
  match clientKey data with
  | none => ⟨[], false, unread⟩
  | some key => ⟨[buildUpgradeResponse (computeAcceptKey sha1 key)], true, unread⟩

def fromUpgrade (chunks : List Bytes) : Upgraded :=
  match readHead [] chunks with
  | none => ⟨[], false, []⟩
  | some (data, unread) => answer sha1 data unread

end Upgrade

section Reading

structure Head (head : Bytes) : Prop where
  ends : ∃ text, head = text ++ headEnd
  first : ∀ p, p <+: head → p ≠ head → ¬ headEnd <:+: p
  short : head.length ≤ 8192

variable {head data rest : Bytes} {chunks : List Bytes}

theorem Head.enough (h : Head head) (t : Bytes) : Enough (head ++ t) := by
  obtain ⟨text, rfl⟩ := h.ends
  exact .inl ⟨text, t, rfl⟩

theorem Head.not_enough (h : Head head) (hdata : data <+: head) (hne : data ≠ head) : ¬ Enough data := by
  rintro (hcontains | hlong)
  · exact h.first data hdata hne hcontains
  · have hlt : data.length < head.length := lt_of_le_of_ne hdata.length_le fun heq => hne (hdata.eq_of_length heq)
    have hshort := h.short
    omega

theorem readHead_enough (h : Enough data) (chunks : List Bytes) : readHead data chunks = some (data, chunks) := by
  cases chunks <;> rw [readHead, if_pos h]

theorem Head.readHead_whole (h : Head head) (t : Bytes) (chunks : List Bytes) :
    readHead (head ++ t) chunks = some (head ++ t, chunks) := readHead_enough (h.enough t) chunks

theorem Head.readHead_part (h : Head head) (hdata : data <+: head) (hne : data ≠ head) {chunk : Bytes} (hchunk : chunk ≠ [])
    (chunks : List Bytes) : readHead data (chunk :: chunks) = readHead (data ++ chunk) chunks := by
  rw [readHead, if_neg (h.not_enough hdata hne), if_neg hchunk]

theorem readHead_stream (h : Head head) : ∀ {chunks : List Bytes} {data : Bytes}, (∀ chunk ∈ chunks, chunk ≠ []) →
    data <+: head → data ++ chunks.flatten = head ++ rest → ∃ lost taken unread, chunks = taken ++ unread ∧
      readHead data chunks = some (head ++ lost, unread) ∧ data ++ taken.flatten = head ++ lost := by
  intro chunks
  induction chunks with
  | nil =>
      intro data _ hdata hstream
      have hlength := congrArg List.length hstream
      simp only [List.flatten_nil, List.append_nil, List.length_append] at hlength
      obtain rfl := hdata.eq_of_length (le_antisymm hdata.length_le (by omega))
      have hread := h.readHead_whole [] []
      rw [List.append_nil] at hread
      exact ⟨[], [], [], rfl, by rw [hread, List.append_nil], rfl⟩
  | cons chunk chunks ih =>
      intro data hne hdata hstream
      by_cases hwhole : data = head
      · subst hwhole
        have hread := h.readHead_whole [] (chunk :: chunks)
        rw [List.append_nil] at hread
        exact ⟨[], [], chunk :: chunks, rfl, by rw [hread, List.append_nil], rfl⟩
      · have hread := h.readHead_part hdata hwhole (hne chunk List.mem_cons_self) chunks
        rw [List.flatten_cons, ← List.append_assoc] at hstream
        have hprefix : data ++ chunk <+: head ++ rest := ⟨chunks.flatten, hstream⟩
        rcases List.prefix_or_prefix_of_prefix hprefix (List.prefix_append head rest) with hpart | ⟨lost, hlost⟩
        · obtain ⟨lost, taken, unread, rfl, hrest, htaken⟩ :=
            ih (fun c hc => hne c (List.mem_cons_of_mem _ hc)) hpart hstream
          refine ⟨lost, chunk :: taken, unread, rfl, hread.trans hrest, ?_⟩
          rw [List.flatten_cons, ← List.append_assoc, htaken]
        · refine ⟨lost, [chunk], chunks, rfl, ?_, ?_⟩
          · rw [hread, ← hlost]
            exact h.readHead_whole lost chunks
          · rw [List.flatten_singleton, hlost]

theorem readHead_exact (h : Head head) (more : List Bytes) : ∀ {taken : List Bytes} {data : Bytes},
    (∀ chunk ∈ taken, chunk ≠ []) → data ++ taken.flatten = head → readHead data (taken ++ more) = some (head, more) := by
  intro taken
  induction taken with
  | nil =>
      intro data _ hhead
      rw [List.flatten_nil, List.append_nil] at hhead
      subst hhead
      have hread := h.readHead_whole [] more
      rwa [List.append_nil] at hread
  | cons chunk taken ih =>
      intro data hne hhead
      have hchunk := hne chunk List.mem_cons_self
      have hpart : data ≠ head := by
        rintro rfl
        simp [hchunk] at hhead
      rw [List.flatten_cons, ← List.append_assoc] at hhead
      have hprefix : data <+: head := ⟨chunk ++ taken.flatten, by rw [← List.append_assoc, hhead]⟩
      rw [List.cons_append, h.readHead_part hprefix hpart hchunk]
      exact ih (fun c hc => hne c (List.mem_cons_of_mem _ hc)) hhead

end Reading

section Parsing

theorem lines_ne_nil (s : Str) : lines s ≠ [] := by
  induction s using lines.induct with
  | case1 => exact List.cons_ne_nil _ _
  | case2 c => exact List.cons_ne_nil _ _
  | case3 c d rest h ih =>
      rw [lines, if_pos h]
      exact List.cons_ne_nil _ _
  | case4 c d rest h ih =>
      rw [lines, if_neg h]
      cases hlines : lines (d :: rest) with
      | nil => exact absurd hlines ih
      | cons l ls => exact List.cons_ne_nil _ _

theorem lines_append (s t : Str) : lines (s ++ ofChar '\r' :: ofChar '\n' :: t) = lines s ++ lines t := by
  induction s using lines.induct with
  | case1 => exact lines_line List.not_mem_nil t
  | case2 c =>
      have hno : ¬ (c = ofChar '\r' ∧ ofChar '\r' = ofChar '\n') := fun h => absurd h.2 (by decide)
      have hcons : lines (c :: ofChar '\r' :: ofChar '\n' :: t) = (lines (ofChar '\r' :: ofChar '\n' :: t)).modifyHead (c :: ·) := by
        rw [lines.eq_3, if_neg hno]
      have hline : lines (ofChar '\r' :: ofChar '\n' :: t) = [] :: lines t := lines_line List.not_mem_nil t
      rw [List.cons_append, List.nil_append, hcons, hline]
      rfl
  | case3 c d rest h ih =>
      rw [List.cons_append, List.cons_append, lines, if_pos h, lines, if_pos h, ih]
      rfl
  | case4 c d rest h ih =>
      rw [List.cons_append, List.cons_append, lines, if_neg h, lines, if_neg h, ← List.cons_append, ih]
      cases hlines : lines (d :: rest) with
      | nil => exact absurd hlines (lines_ne_nil _)
      | cons l ls => rfl

theorem readHeaders_stop (ls more : List Str) (headers : Dict Str Str) :
    readHeaders headers (ls ++ [] :: more) = readHeaders headers (ls ++ [[]]) := by
  induction ls generalizing headers with
  | nil => rfl
  | cons l ls ih =>
      simp only [List.cons_append, readHeaders, ih]

theorem latin1_crlf (t : Bytes) : latin1 (crlf ++ t) = ofChar '\r' :: ofChar '\n' :: latin1 t := rfl

theorem lines_head (text extra : Bytes) :
    lines (latin1 (text ++ headEnd ++ extra)) = lines (latin1 text) ++ [] :: lines (latin1 extra) := by
  rw [headEnd, List.append_assoc, List.append_assoc, latin1_append, latin1_crlf, lines_append, latin1_crlf,
    ← List.nil_append (ofChar '\r' :: _), lines_append]
  rfl

theorem parseHttpUpgrade_congr {data data' : Bytes} {first : Str} {rest rest' : List Str}
    (h : lines (latin1 data) = first :: rest) (h' : lines (latin1 data') = first :: rest')
    (hrest : ∀ headers, readHeaders headers rest = readHeaders headers rest') :
    parseHttpUpgrade data = parseHttpUpgrade data' := by
  have hlatin1 : ∀ d : Bytes, (d.map fun b => Json.codePoint b.toNat) = latin1 d := fun _ => rfl
  rw [parseHttpUpgrade, parseHttpUpgrade, hlatin1, hlatin1, h, h']
  simp only [hrest]

theorem clientKey_head {head : Bytes} (h : Head head) (extra : Bytes) : clientKey (head ++ extra) = clientKey head := by
  obtain ⟨text, rfl⟩ := h.ends
  have hnil := lines_head text []
  rw [List.append_nil] at hnil
  obtain ⟨first, rest, hfirst⟩ := List.exists_cons_of_ne_nil (lines_ne_nil (latin1 text))
  have hmore := lines_head text extra
  rw [hfirst, List.cons_append] at hmore hnil
  have hparse : parseHttpUpgrade (text ++ headEnd ++ extra) = parseHttpUpgrade (text ++ headEnd) :=
    parseHttpUpgrade_congr hmore hnil fun headers => by rw [readHeaders_stop rest, readHeaders_stop rest (lines (latin1 []))]
  rw [clientKey, clientKey, hparse]

end Parsing

section Segments

variable {sha1 : Bytes → Bytes} {head rest : Bytes} {chunks : List Bytes}

theorem answer_head (h : Head head) (extra : Bytes) (unread : List Bytes) :
    answer sha1 (head ++ extra) unread = answer sha1 head unread := by
  rw [answer, answer, clientKey_head h]

theorem delivers_unread {frames : List Frame} (hne : ∀ chunk ∈ chunks, chunk ≠ []) (hclient : ∀ f ∈ frames, ClientFrame f)
    (hstream : chunks.flatten = stream frames) (hkeeps : KeepsFrames 0 frames chunks) : Delivers frames chunks :=
  resume_keeps hne hclient hstream (fun f _ => List.length_pos_iff.mpr f.wire_ne_nil) hkeeps le_rfl

theorem upgrade_segmented (h : Head head) (hne : ∀ chunk ∈ chunks, chunk ≠ []) (hstream : chunks.flatten = head ++ rest) :
    ∃ lost unread, fromUpgrade sha1 chunks = answer sha1 head unread ∧ rest = lost ++ unread.flatten ∧
      (lost = [] ↔ ∃ taken, taken <+: chunks ∧ taken.flatten = head) ∧
      (lost = [] → ∀ frames, (∀ f ∈ frames, ClientFrame f) → rest = stream frames → KeepsFrames 0 frames unread →
        Delivers frames unread) := by
  obtain ⟨lost, taken, unread, rfl, hread, htaken⟩ := readHead_stream h hne (List.nil_prefix) hstream
  rw [List.nil_append] at htaken
  have hrest : rest = lost ++ unread.flatten := by
    rw [List.flatten_append, htaken, List.append_assoc] at hstream
    exact (List.append_cancel_left hstream).symm
  refine ⟨lost, unread, ?_, hrest, ⟨fun hlost => ?_, ?_⟩, fun hlost frames hclient hframes => ?_⟩
  · rw [fromUpgrade, hread]
    exact answer_head h lost unread
  · exact ⟨taken, List.prefix_append _ _, by rw [htaken, hlost, List.append_nil]⟩
  · rintro ⟨taken', ⟨more, hmore⟩, hhead⟩
    have hexact : readHead [] (taken' ++ more) = some (head, more) :=
      readHead_exact h more (fun c hc => hne c (hmore ▸ List.mem_append_left _ hc)) hhead
    rw [hmore, hread, Option.some.injEq, Prod.mk.injEq] at hexact
    exact List.append_right_eq_self.mp hexact.1
  · rw [hlost, List.nil_append] at hrest
    exact delivers_unread (fun c hc => hne c (List.mem_append_right _ hc)) hclient (hrest.symm.trans hframes)

end Segments

section Sample

def sampleHead : Bytes := Agent.bytes (str "GET / HTTP/1.1\r\nSec-WebSocket-Key: k\r\n\r\n")

theorem sample_head : Head sampleHead where
  ends := ⟨Agent.bytes (str "GET / HTTP/1.1\r\nSec-WebSocket-Key: k"), by decide +kernel⟩
  first := by
    have hall : ∀ p ∈ sampleHead.inits, p ≠ sampleHead → ¬ headEnd <:+: p := by decide +kernel
    exact fun p hp => hall p ((List.mem_inits p sampleHead).mpr hp)
  short := by decide +kernel

theorem upgrade_segmented_sample : ∃ lost unread,
    fromUpgrade id [sampleHead.take 20, sampleHead.drop 20 ++ textA.wire.take 3, textA.wire.drop 3] =
      answer id sampleHead unread ∧ textA.wire = lost ++ unread.flatten ∧ (lost = [] ↔ ∃ taken,
        taken <+: [sampleHead.take 20, sampleHead.drop 20 ++ textA.wire.take 3, textA.wire.drop 3] ∧
          taken.flatten = sampleHead) ∧
      (lost = [] → ∀ frames, (∀ f ∈ frames, ClientFrame f) → textA.wire = stream frames → KeepsFrames 0 frames unread →
        Delivers frames unread) :=
  upgrade_segmented sample_head (by decide +kernel) (by decide +kernel)

end Sample

end Ws.RawUpgrade
