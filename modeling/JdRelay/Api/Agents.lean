import JdRelay.Base.Query
import JdRelay.Base.Python
import JdRelay.Ws.AgentManager

namespace Api.Agents
open Text Json Python Query Ws

variable {D S : Type}

-- A text column holds no lone surrogate.
structure Agent (D : Type) where
  agentId : Str
  projects : Str
  lastSeenAt : Option D
  connectedAt : Option D
  createdAt : D
  agentId_text : Scalar agentId

structure Table (D : Type) where
  rows : List (Agent D)
  agent_ids : (rows.map (·.agentId)).Nodup

structure AgentSummary where
  agentId : Str
  projects : List Str
  isOnline : Bool
  connectedAt : Option Str
  lastSeenAt : Option Str
  deriving DecidableEq

-- isoformat, what pydantic takes for a str and for a list[str], and the body that JSONResponse makes of the list.
structure Library (D : Type) where
  isoformat : D → Str
  strField : Value → Option Str
  listField : Value → Option (List Str)
  render : List AgentSummary → Option Bytes

def AgentSummary.texts (s : AgentSummary) : List Str :=
  s.agentId :: s.projects ++ s.connectedAt.toList ++ s.lastSeenAt.toList

-- Of what json.loads makes, pydantic takes a str as it is and a list item by item, and nothing else; a body is UTF-8, so
-- that a lone surrogate is refused only there.
structure Documented (lib : Library D) : Prop where
  isoformat : ∀ d, Scalar (lib.isoformat d)
  str : ∀ s, lib.strField (.str s) = some s
  notStr : ∀ v, (∀ s, v ≠ .str s) → lib.strField v = none
  list : ∀ items, lib.listField (.arr items) = items.mapM lib.strField
  notList : ∀ v, (∀ items, v ≠ .arr items) → lib.listField v = none
  render : ∀ summaries, (lib.render summaries).isSome = true ↔ ∀ s ∈ summaries, ∀ text ∈ s.texts, Scalar text

section Fields

variable (lib : Library D)

-- AgentSummary(...): pydantic's ValidationError is a ValueError.
def agentSummary (agentId projects : Value) (isOnline : Bool) (connectedAt lastSeenAt : Option Str) :
    Except Error AgentSummary :=
  match lib.strField agentId, lib.listField projects with
  | some agentId, some projects => .ok ⟨agentId, projects, isOnline, connectedAt, lastSeenAt⟩
  | _, _ => .error .valueError

-- a.get(key, default): of what json.loads makes, and of a str, only a dict has get.
def getItem (a : Value) (key : String) (default : Value) : Except Error Value :=
  match a with
  | .obj fields => .ok (get fields key default)
  | _ => .error .attributeError

def hashed (v : Value) : Except Error DictKey :=
  match dictKey v with
  | some k => .ok k
  | none => .error .typeError

end Fields

section Route

-- online_ids with the element that each key stands for, and online_projects.
structure Live where
  onlineIds : Dict DictKey Value
  onlineProjects : Dict DictKey Value

def collect : List Value → Live → Except Error Live
  | [], live => .ok live
  | a :: rest, live => do
      let agentId ← getItem a "agent_id" (.str [])
      let key ← hashed agentId
      let projects ← getItem a "projects" (.arr [])
      collect rest
        ⟨if key ∈ live.onlineIds then live.onlineIds else live.onlineIds.insert key agentId,
          live.onlineProjects.insert key projects⟩

def keyValue : DictKey → Value
  | .none => .null
  | .num n => .int n
  | .float x => .float x
  | .str s => .str s

def liveOf (manager : Option (AgentManager DictKey S)) : Except Error Live :=
  match manager with
  | some manager => collect (manager.listAgents.map keyValue) ⟨∅, ∅⟩
  | none => .ok ⟨∅, ∅⟩

structure SetOrder where
  items : Dict DictKey Value → List (DictKey × Value)
  perm : ∀ d, (items d).Perm (d.entries.map fun e => (e.1, e.2))

variable (lib : Library D)

def rowSummary (live : Live) (a : Agent D) : Except Error AgentSummary :=
  let projects := (loads a.projects).getD (.arr [])
  let isOnline := decide (.str a.agentId ∈ live.onlineIds)
  agentSummary lib (.str a.agentId) ((live.onlineProjects.lookup (.str a.agentId)).getD projects) isOnline
    (if isOnline then a.connectedAt.map lib.isoformat else none) (a.lastSeenAt.map lib.isoformat)

def liveSummary (live : Live) (item : DictKey × Value) : Except Error AgentSummary :=
  agentSummary lib item.2 ((live.onlineProjects.lookup item.1).getD (.arr [])) true none none

-- summaries.insert(0, ..) puts the agents that the table lacks in front, the last one first.
def listAgents (order : SetOrder) (manager : Option (AgentManager DictKey S)) (dbAgents : List (Agent D)) :
    Except Error (List AgentSummary) := do
  let live ← liveOf manager
  let summaries ← dbAgents.mapM (rowSummary lib live)
  let unseen := (order.items live.onlineIds).filter fun item => decide (item.1 ∉ dbAgents.map fun a => .str a.agentId)
  let inserted ← unseen.mapM (liveSummary lib live)
  .ok (inserted.reverse ++ summaries)

end Route

section Complete

def Registered (manager : Option (AgentManager DictKey S)) (key : DictKey) : Prop :=
  ∃ m, manager = some m ∧ key ∈ m.byAgent

def text? : Value → Option Str
  | .str s => some s
  | _ => none

def texts? : Value → Option (List Str)
  | .arr items => items.mapM text?
  | _ => none

def tableProjects (text : Str) : Option (List Str) := (loads text).bind texts?

structure Entry (manager : Option (AgentManager DictKey S)) (t : Table D) (s : AgentSummary) : Prop where
  online : s.isOnline = true ↔ Registered manager (.str s.agentId)
  live : ∀ m info, manager = some m → m.getByAgent (.str s.agentId) = some info → s.projects.map .str = info.projects
  stored : ¬ Registered manager (.str s.agentId) → ∀ a ∈ t.rows, a.agentId = s.agentId → ∀ projects,
    tableProjects a.projects = some projects → s.projects = projects

structure Complete (manager : Option (AgentManager DictKey S)) (t : Table D) (summaries : List AgentSummary) : Prop where
  once : (summaries.map (·.agentId)).Nodup
  ids : ∀ key, key ∈ summaries.map (DictKey.str ·.agentId) ↔
    key ∈ t.rows.map (DictKey.str ·.agentId) ∨ Registered manager key
  entries : ∀ s ∈ summaries, Entry manager t s

def Lists (lib : Library D) (order : SetOrder) (manager : Option (AgentManager DictKey S)) (t : Table D)
    (dbAgents : List (Agent D)) : Prop :=
  ∃ summaries body, listAgents lib order manager dbAgents = .ok summaries ∧ lib.render summaries = some body ∧
    Complete manager t summaries

-- Text that is no JSON at all counts as the empty list.
def Readable (text : Str) : Prop :=
  loads text = none ∨ ∃ projects, tableProjects text = some projects ∧ ∀ p ∈ projects, Scalar p

end Complete

section Pydantic

variable {lib : Library D}

theorem strField_eq (hlib : Documented lib) (v : Value) : lib.strField v = text? v := by
  cases v with
  | str s => exact hlib.str s
  | _ => exact hlib.notStr _ fun s => Value.noConfusion

theorem listField_eq (hlib : Documented lib) (v : Value) : lib.listField v = texts? v := by
  cases v with
  | arr items => rw [hlib.list, funext (strField_eq hlib), texts?]
  | _ => exact hlib.notList _ fun items => Value.noConfusion

end Pydantic

section Outcome

variable {manager : Option (AgentManager DictKey S)}

theorem liveOf_registered {key : DictKey} (h : Registered manager key) : liveOf manager = .error .attributeError := by
  obtain ⟨m, rfl, hkey⟩ := h
  have hkeys : key ∈ m.listAgents := AList.mem_keys.mp hkey
  rw [liveOf]
  cases hlist : m.listAgents with
  | nil =>
      rw [hlist] at hkeys
      cases hkeys
  | cons k ks => cases k <;> rfl

theorem liveOf_nobody (h : ∀ key, ¬ Registered manager key) : liveOf manager = .ok ⟨∅, ∅⟩ := by
  cases manager with
  | none => rfl
  | some m =>
      have hlist : m.listAgents = [] :=
        List.eq_nil_iff_forall_not_mem.mpr fun key hkey => h key ⟨m, rfl, AList.mem_keys.mpr hkey⟩
      rw [liveOf, hlist]
      rfl

variable {lib : Library D}

theorem listAgents_nobody (h : ∀ key, ¬ Registered manager key) (order : SetOrder) (dbAgents : List (Agent D)) :
    listAgents lib order manager dbAgents = dbAgents.mapM (rowSummary lib ⟨∅, ∅⟩) := by
  have hitems : order.items ∅ = [] := (order.perm ∅).eq_nil
  rw [listAgents, liveOf_nobody h]
  simp only [bind, Except.bind, hitems, List.filter_nil, List.mapM_nil, pure, Except.pure, List.reverse_nil, List.nil_append]
  cases dbAgents.mapM (rowSummary lib ⟨∅, ∅⟩) <;> rfl

variable (lib) in
def storedSummary (a : Agent D) : AgentSummary where
  agentId := a.agentId
  projects := (tableProjects a.projects).getD []
  isOnline := false
  connectedAt := none
  lastSeenAt := a.lastSeenAt.map lib.isoformat

theorem rowSummary_ok_iff (hlib : Documented lib) {a : Agent D} {s : AgentSummary} :
    rowSummary lib ⟨∅, ∅⟩ a = .ok s ↔
      (loads a.projects = none ∨ ∃ projects, tableProjects a.projects = some projects) ∧ s = storedSummary lib a := by
  have hrow : rowSummary lib ⟨∅, ∅⟩ a = (texts? ((loads a.projects).getD (.arr []))).elim (.error .valueError)
      fun projects => .ok ⟨a.agentId, projects, false, none, a.lastSeenAt.map lib.isoformat⟩ := by
    rw [rowSummary, agentSummary, hlib.str]
    simp only [AList.lookup_empty, Option.getD_none, AList.notMem_empty, decide_false, Bool.false_eq_true, if_false,
      listField_eq hlib]
    cases texts? ((loads a.projects).getD (.arr [])) <;> rfl
  rw [hrow, storedSummary, tableProjects]
  cases loads a.projects with
  | none => simp [texts?, eq_comm]
  | some v => cases hv : texts? v <;> simp [hv, eq_comm]

theorem complete_stored (hnobody : ∀ key, ¬ Registered manager key) {t : Table D} {dbAgents : List (Agent D)}
    (hperm : dbAgents.Perm t.rows) : Complete manager t (dbAgents.map (storedSummary lib)) := by
  have hids : (dbAgents.map (storedSummary lib)).map (·.agentId) = dbAgents.map (·.agentId) := by
    rw [List.map_map]
    rfl
  refine ⟨hids ▸ (hperm.map (·.agentId)).nodup_iff.mpr t.agent_ids, fun key => ?_, fun s hs => ?_⟩
  · rw [List.map_map, or_iff_left (hnobody key)]
    exact (hperm.map (DictKey.str ·.agentId)).mem_iff
  · obtain ⟨a, ha, rfl⟩ := List.mem_map.mp hs
    refine ⟨iff_of_false Bool.false_ne_true (hnobody _), fun m info hm hinfo => ?_, fun _ b hb hid projects hprojects => ?_⟩
    · exact absurd ⟨m, hm, AList.lookup_isSome.mp (Option.isSome_of_eq_some hinfo)⟩ (hnobody (.str a.agentId))
    · obtain rfl := List.inj_on_of_nodup_map t.agent_ids hb (hperm.mem_iff.mp ha) hid
      rw [storedSummary, hprojects, Option.getD_some]

theorem storedSummary_scalar_iff (hlib : Documented lib) (a : Agent D) :
    (∀ text ∈ (storedSummary lib a).texts, Scalar text) ↔ ∀ p ∈ (tableProjects a.projects).getD [], Scalar p := by
  have hseen : ∀ text ∈ (a.lastSeenAt.map lib.isoformat).toList, Scalar text := by
    cases a.lastSeenAt with
    | none => simp
    | some d => simpa using hlib.isoformat d
  constructor
  · exact fun h p hp => h p (by simp [AgentSummary.texts, storedSummary, hp])
  · intro h text htext
    simp only [AgentSummary.texts, storedSummary, Option.toList_none, List.append_nil, List.cons_append,
      List.mem_cons, List.mem_append] at htext
    rcases htext with rfl | hp | hd
    · exact a.agentId_text
    · exact h text hp
    · exact hseen text hd

theorem readable_iff {text : Str} :
    Readable text ↔ (loads text = none ∨ ∃ projects, tableProjects text = some projects) ∧
      ∀ p ∈ (tableProjects text).getD [], Scalar p := by
  rw [Readable, tableProjects]
  cases loads text with
  | none => simp
  | some v => cases hv : texts? v <;> simp [hv]

theorem agent_list_complete_iff [LinearOrder D] (hlib : Documented lib) (order : SetOrder)
    (manager : Option (AgentManager DictKey S)) (t : Table D) {dbAgents : List (Agent D)}
    (h : Answers (·.createdAt) t.rows dbAgents) :
    Lists lib order manager t dbAgents ↔ (∀ key, ¬ Registered manager key) ∧ ∀ a ∈ t.rows, Readable a.projects := by
  constructor
  · rintro ⟨summaries, body, hok, hbody, -⟩
    have hnobody : ∀ key, ¬ Registered manager key := fun key hkey => by
      rw [listAgents, liveOf_registered hkey] at hok
      cases hok
    refine ⟨hnobody, fun a ha => ?_⟩
    rw [listAgents_nobody hnobody] at hok
    obtain ⟨s, hs, hrow⟩ := ok_of_mapM hok a (h.perm.mem_iff.mpr ha)
    obtain ⟨hread, rfl⟩ := (rowSummary_ok_iff hlib).mp hrow
    have hscalar := (hlib.render summaries).mp (Option.isSome_of_eq_some hbody) _ hs
    exact readable_iff.mpr ⟨hread, (storedSummary_scalar_iff hlib a).mp hscalar⟩
  · rintro ⟨hnobody, hreadable⟩
    have hrows : ∀ a ∈ dbAgents, Readable a.projects := fun a ha => hreadable a (h.perm.mem_iff.mp ha)
    have hbody : (lib.render (dbAgents.map (storedSummary lib))).isSome = true := by
      refine (hlib.render _).mpr fun s hs => ?_
      obtain ⟨a, ha, rfl⟩ := List.mem_map.mp hs
      exact (storedSummary_scalar_iff hlib a).mpr (readable_iff.mp (hrows a ha)).2
    obtain ⟨body, hbody⟩ := Option.isSome_iff_exists.mp hbody
    refine ⟨_, body, ?_, hbody, complete_stored hnobody h.perm⟩
    rw [listAgents_nobody hnobody]
    exact mapM_of_ok fun a ha => (rowSummary_ok_iff hlib).mpr ⟨(readable_iff.mp (hrows a ha)).1, rfl⟩

end Outcome

section Samples

def inserted : SetOrder := ⟨fun d => d.entries.map fun e => (e.1, e.2), fun _ => .refl _⟩

def optionValue : Option Str → Value
  | none => .null
  | some s => .str s

def summaryValue (s : AgentSummary) : Value :=
  .obj [(str "agent_id", .str s.agentId), (str "projects", .arr (s.projects.map .str)), (str "is_online", .bool s.isOnline),
    (str "connected_at", optionValue s.connectedAt), (str "last_seen_at", optionValue s.lastSeenAt)]

def sampleLibrary : Library Nat where
  isoformat := fun d => str "2025-01-01T00:00:00." ++ Number.natStr (100000 + d % 900000)
  strField := text?
  listField := texts?
  render := fun summaries =>
    if ∀ s ∈ summaries, ∀ text ∈ s.texts, Scalar text then
      some ((encodeUtf8 (dumpsWith .compact (.arr (summaries.map summaryValue)))).getD [])
    else none

theorem sampleLibrary_documented : Documented sampleLibrary where
  isoformat := fun d => (scalar_str _).append (Number.scalar_intStr (100000 + d % 900000 : Nat))
  str := fun s => rfl
  notStr := fun v hv => by
    cases v with
    | str s => exact absurd rfl (hv s)
    | _ => rfl
  list := fun items => rfl
  notList := fun v hv => by
    cases v with
    | arr items => exact absurd rfl (hv items)
    | _ => rfl
  render := fun summaries => by simp [sampleLibrary]

def row (agentId : String) (projects : Str) : Agent Nat where
  agentId := str agentId
  projects := projects
  lastSeenAt := some 7
  connectedAt := none
  createdAt := 0
  agentId_text := scalar_str _

-- A list of strings, text that is no JSON, and an empty list.
def rows : List (Agent Nat) := [row "a1" (str "[\"p\",\"é\"]"), row "a2" (str "p, q"), row "a3" (str "[]")]

def sampleTable : Table Nat := ⟨rows, by decide⟩

theorem answers_rows : Answers (·.createdAt) sampleTable.rows rows.reverse :=
  ⟨List.reverse_perm _, by decide⟩

theorem agent_list_of_rows :
    Lists sampleLibrary inserted (none : Option (AgentManager DictKey Unit)) sampleTable rows.reverse := by
  refine (agent_list_complete_iff sampleLibrary_documented inserted none _ answers_rows).mpr
    ⟨fun _ h => (by obtain ⟨_, h, -⟩ := h; cases h), fun a ha => readable_iff.mpr ?_⟩
  have hread : ∀ a ∈ rows, (loads a.projects = none ∨ (tableProjects a.projects).isSome = true) ∧
      ∀ p ∈ (tableProjects a.projects).getD [], Scalar p := by decide +kernel
  obtain ⟨hread, hscalar⟩ := hread a ha
  exact ⟨hread.imp_right Option.isSome_iff_exists.mp, hscalar⟩

def oneRow (projects : Str) : Table Nat := ⟨[row "a1" projects], List.nodup_singleton _⟩

def oneAgent : AgentManager DictKey Unit := AgentManager.empty.addAgent (.str (str "a1")) [.str (str "p")] ()

-- An agent is registered; the row holds another JSON text than a list of strings; a project has a lone surrogate.
theorem agent_list_raises :
    ¬ Lists sampleLibrary inserted (some oneAgent) sampleTable rows ∧
      ¬ Lists sampleLibrary inserted (none : Option (AgentManager DictKey Unit)) (oneRow (str "5")) [row "a1" (str "5")] ∧
      ¬ Lists sampleLibrary inserted (none : Option (AgentManager DictKey Unit)) (oneRow (str "[\"\\ud800\"]"))
        [row "a1" (str "[\"\\ud800\"]")] := by
  refine ⟨fun ⟨summaries, body, hok, _, _⟩ => ?_, fun ⟨summaries, body, hok, _, _⟩ => ?_,
    fun ⟨summaries, body, hok, hbody, _⟩ => ?_⟩
  · have hlive := liveOf_registered (show Registered (some oneAgent) (.str (str "a1")) from ⟨oneAgent, rfl, by decide⟩)
    rw [listAgents, hlive] at hok
    cases hok
  · have hraised : listAgents sampleLibrary inserted (none : Option (AgentManager DictKey Unit)) [row "a1" (str "5")] =
        .error .valueError := by decide +kernel
    rw [hraised] at hok
    cases hok
  · have hmade : (listAgents sampleLibrary inserted (none : Option (AgentManager DictKey Unit))
        [row "a1" (str "[\"\\ud800\"]")]).map sampleLibrary.render = .ok none := by decide +kernel
    rw [hok] at hmade
    cases hbody.symm.trans (Except.ok.inj hmade)

end Samples

end Api.Agents
