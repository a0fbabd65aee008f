import JdRelay.Agent.Review

namespace Agent.ReviewRequests
open Text Json Runs AgentMain

-- HEAD and the base ref, and what detect_special_md_change answers for them.
structure Repo (K : Type) where
  refs : K
  changed : Bool
  deriving DecidableEq

-- stretch counts the pairs and answers up to the one that was looked at, loop tells the main loop from a thread.
structure Request (B : Type) where
  stretch : Nat
  build : Option B
  loop : Bool
  text : Str

structure Setting (K B : Type) where
  agent : AgentMain.Setting B
  repoPath : Bytes
  specialMdIntervalSec : Int
  started : Int
  repo : Repo K

abbrev Entry := Sigma fun _ : Int => BuildContext

-- owner is the trigger that made an entry and triggered its trigger_time, looked is what the timer's last check was
-- about; times are in nanoseconds.
structure State (K B : Type) where
  agent : AgentMain.State B
  owner : Int → Option B
  triggered : Int → Int
  now : Int
  woken : Int
  lastSpecialCheck : Int
  repo : Repo K
  stretch : Nat
  looked : Option Nat
  found : Option Nat
  inspected : B → Option (Option Nat)
  sent : List (Request B)

-- entries is the order the map is walked in.
inductive Event (K B : Type) where
  | agent (e : AgentMain.Event B) (now : Int)
  | repo (r : Repo K)
  | inspect (b : B)
  | check (now : Int)
  | report (entries : List Entry) (sent : Bool)

def repoReqDump (cfg : AgentConfig) (active : Option (Str × Str)) : Except Exn Str := do
  let agentId ← dumpString cfg.agentId
  let named := match active with
    | none => []
    | some (issue, project) => [(str "issue", Value.str issue), (str "project", .str project)]
  .ok (dumpsWith .compact (.obj
    ([(str "agent_id", agentId)] ++ named ++ [(str "reason", .str (str "repo-level special.md change detected"))])))

def newest (triggered : Int → Int) : List Entry → Option Entry
  | [] => none
  | e :: es => some (es.foldl (fun newest it => if triggered it.1 > triggered newest.1 then it else newest) e)

def activeEntry (triggered : Int → Int) (entries : List Entry) : Option Entry :=
  (newest triggered entries).filter fun e => e.2.issue ≠ []

def elapsed (now last : Int) : Int := (now - last).tdiv 1000000000

variable {K B : Type} (g : Setting K B)

section Requests

variable (s : State K B)

def detect : Option Nat := if s.repo.changed then some s.stretch else none

def concerned (entries : List Entry) : Option B :=
  (activeEntry s.triggered entries).bind fun e => s.owner e.1

-- The thread goes by what it found, and the client goes only when the main loop is left.
def admits : AgentMain.Event B → Bool
  | .request b _ => ((s.inspected b).bind id).isSome
  | .finish b => decide (s.inspected b = some none) || (s.inspected b).isSome && !s.agent.client
  | .shutdown => s.found.isNone
  | _ => true

def threadRequests : AgentMain.Event B → List (Request B)
  | .request b true =>
      match s.inspected b, reviewReqDump g.agent.cfg (g.agent.context b) with
      | some (some n), .ok text => [⟨n, some b, false, text⟩]
      | _, _ => []
  | _ => []

def active (entries : List Entry) : Option (Str × Str) :=
  (activeEntry s.triggered entries).map fun e => (e.2.issue, e.2.project)

def loopRequests (entries : List Entry) : Bool → List (Request B)
  | true =>
      match s.found, repoReqDump g.agent.cfg (active s entries) with
      | some n, .ok text => [⟨n, concerned s entries, true, text⟩]
      | _, _ => []
  | false => []

def requests : Event K B → List (Request B)
  | .agent e _ => threadRequests g s e
  | .report entries sent => loopRequests g s entries sent
  | _ => []

def started : AgentMain.Event B → Option B
  | .trigger b => if g.agent.cfg.jenkinsUrl = [] ∨ (g.agent.context b).buildNumber = 0 then none else some b
  | _ => none

def moved (e : AgentMain.Event B) (now : Int) (a : AgentMain.State B) : State K B :=
  match started g e with
  | some b =>
      { s with
        agent := a
        owner := Function.update s.owner (g.agent.context b).buildNumber (some b)
        triggered := Function.update s.triggered (g.agent.context b).buildNumber now
        now := now }
  | none => { s with agent := a, now := now, sent := s.sent ++ threadRequests g s e }

def key (r : Request B) : Nat × Option B := (r.stretch, r.build)

end Requests

section Specs

variable {g : Setting K B} {s : State K B}

theorem nodup_append_iff {sent : List (Request B)} {r : Request B} :
    ((sent ++ [r]).map key).Nodup ↔
      (sent.map key).Nodup ∧ ∀ q ∈ sent, q.stretch = r.stretch → q.build ≠ r.build := by
  rw [List.map_append, List.map_singleton, List.nodup_append_comm, List.singleton_append, List.nodup_cons, and_comm]
  refine and_congr_right' ⟨fun h q hq hstretch hbuild => ?_, fun h hmem => ?_⟩
  · exact h (List.mem_map.mpr ⟨q, hq, Prod.ext hstretch hbuild⟩)
  · obtain ⟨q, hq, heq⟩ := List.mem_map.mp hmem
    exact h q hq (congrArg Prod.fst heq) (congrArg Prod.snd heq)

theorem threadRequests_started {e : AgentMain.Event B} {b : B} (h : started g e = some b) :
    threadRequests g s e = [] := by
  cases e with
  | trigger b => rfl
  | _ => cases h

theorem moved_sent (e : AgentMain.Event B) (now : Int) (a : AgentMain.State B) :
    (moved g s e now a).sent = s.sent ++ threadRequests g s e := by
  unfold moved
  split
  · rename_i hstarted
    rw [threadRequests_started hstarted, List.append_nil]
  · rfl

theorem moved_agent (e : AgentMain.Event B) (now : Int) (a : AgentMain.State B) : (moved g s e now a).agent = a := by
  unfold moved
  split <;> rfl

theorem mem_threadRequests {e : AgentMain.Event B} {r : Request B} (h : r ∈ threadRequests g s e) :
    ∃ b n text, e = .request b true ∧ s.inspected b = some (some n) ∧
      reviewReqDump g.agent.cfg (g.agent.context b) = .ok text ∧ r = ⟨n, some b, false, text⟩ := by
  cases e with
  | request b sent =>
      cases sent with
      | false => cases h
      | true =>
          simp only [threadRequests] at h
          split at h
          · rename_i n text hinspected hdump
            exact ⟨b, n, text, rfl, hinspected, hdump, List.mem_singleton.mp h⟩
          · cases h
  | _ => cases h

theorem mem_loopRequests {entries : List Entry} {sent : Bool} {r : Request B} (h : r ∈ loopRequests g s entries sent) :
    ∃ n text, s.found = some n ∧ repoReqDump g.agent.cfg (active s entries) = .ok text ∧
      r = ⟨n, concerned s entries, true, text⟩ := by
  cases sent with
  | false => cases h
  | true =>
      simp only [loopRequests] at h
      split at h
      · rename_i n text hfound hdump
        exact ⟨n, text, hfound, hdump, List.mem_singleton.mp h⟩
      · cases h

theorem requests_eq_nil {e : Event K B} (hrequest : ∀ b now, e ≠ .agent (.request b true) now)
    (hreport : ∀ entries, e ≠ .report entries true) : requests g s e = [] := by
  cases e with
  | agent e now =>
      refine List.eq_nil_iff_forall_not_mem.mpr fun r hr => ?_
      obtain ⟨b, -, -, rfl, -⟩ := mem_threadRequests hr
      exact hrequest b now rfl
  | report entries sent =>
      cases sent with
      | true => exact absurd rfl (hreport entries)
      | false => rfl
  | _ => rfl

end Specs

def Behind (a : AgentMain.State B) (b : B) : Prop := a.thread b ≠ .notStarted ∧ a.thread b ≠ .polling

def named (b : B) : Str × Str := ((g.agent.context b).issue, (g.agent.context b).project)

def Worded (r : Request B) : Prop :=
  match r.loop, r.build with
  | true, build => repoReqDump g.agent.cfg (build.map (named g)) = .ok r.text
  | false, some b => reviewReqDump g.agent.cfg (g.agent.context b) = .ok r.text
  | false, none => False

def Owned (builds : Builds) (owner : Int → Option B) : Prop :=
  ∀ n ctx, builds.lookup n = some ctx → ∃ b, owner n = some b ∧ (ctx.issue, ctx.project) = named g b

structure Inv (s : State K B) : Prop where
  owned : Owned g s.agent.builds s.owner
  once : ∀ r ∈ s.sent, r.loop = false → ∀ b, r.build = some b → Behind s.agent b
  worded : ∀ r ∈ s.sent, Worded g r

section Map

variable {g : Setting K B} {s : State K B}

theorem newest_spec {triggered : Int → Int} {entries : List Entry} {e : Entry} (h : newest triggered entries = some e) :
    e ∈ entries ∧ ∀ it ∈ entries, triggered it.1 ≤ triggered e.1 := by
  cases entries with
  | nil => cases h
  | cons first rest =>
      cases h
      induction rest generalizing first with
      | nil => simp
      | cons it rest ih =>
          rw [List.foldl_cons]
          split
          · rename_i hlater
            obtain ⟨hmem, hmax⟩ := ih it
            refine ⟨List.mem_cons_of_mem _ hmem, ?_⟩
            rintro x (_ | ⟨_, hx⟩)
            · exact hlater.le.trans (hmax it List.mem_cons_self)
            · exact hmax x hx
          · rename_i hlater
            obtain ⟨hmem, hmax⟩ := ih first
            refine ⟨List.mem_cons.mpr ((List.mem_cons.mp hmem).imp_right (List.mem_cons_of_mem _)), ?_⟩
            rintro x (_ | ⟨_, _ | ⟨_, hx⟩⟩)
            · exact hmax first List.mem_cons_self
            · exact (Int.not_lt.mp hlater).trans (hmax first List.mem_cons_self)
            · exact hmax x (List.mem_cons_of_mem _ hx)

theorem owned_of_kept {builds builds' : Builds} {owner : Int → Option B} (hs : Owned g builds owner)
    (h : ∀ n ctx, builds'.lookup n = some ctx →
      ∃ ctx', builds.lookup n = some ctx' ∧ ctx'.issue = ctx.issue ∧ ctx'.project = ctx.project) :
    Owned g builds' owner := by
  intro n ctx hctx
  obtain ⟨ctx', hctx', hissue, hproject⟩ := h n ctx hctx
  rw [← hissue, ← hproject]
  exact hs n ctx' hctx'

theorem owned_erase {builds : Builds} {owner : Int → Option B} (hs : Owned g builds owner) (n : Int) :
    Owned g (builds.erase n) owner := by
  refine owned_of_kept hs fun m ctx hctx => ⟨ctx, ?_, rfl, rfl⟩
  rw [Dict.lookup_erase_if] at hctx
  split at hctx
  · cases hctx
  · exact hctx

theorem owned_markWaiting {builds : Builds} {owner : Int → Option B} (hs : Owned g builds owner) (n : Int) :
    Owned g (markWaiting builds n) owner := by
  refine owned_of_kept hs fun m ctx hctx => ?_
  rw [Review.lookup_markWaiting] at hctx
  split at hctx
  · rename_i hm
    obtain ⟨ctx', hctx', rfl⟩ := Option.map_eq_some_iff.mp hctx
    exact ⟨ctx', hm ▸ hctx', rfl, rfl⟩
  · exact ⟨ctx, hctx, rfl, rfl⟩

theorem active_eq (hs : Owned g s.agent.builds s.owner) {entries : List Entry}
    (hperm : entries.Perm s.agent.builds.entries) : active s entries = (concerned s entries).map (named g) := by
  unfold active concerned
  cases hentry : activeEntry s.triggered entries with
  | none => rfl
  | some e =>
      obtain ⟨hnewest, -⟩ := Option.filter_eq_some_iff.mp hentry
      have hmem : e ∈ s.agent.builds.entries := hperm.mem_iff.mp (newest_spec hnewest).1
      obtain ⟨b, hb, hnamed⟩ := hs e.1 e.2 (AList.mem_lookup_iff.mpr hmem)
      rw [Option.map_some, Option.bind_some, hb, Option.map_some, hnamed]

end Map

section Agent

variable [DecidableEq B] {g : Setting K B} {s : State K B}

theorem behind_step {a : AgentMain.State B} {e : AgentMain.Event B} (h : AgentMain.step g.agent s.agent e = some a)
    {b : B} (hb : Behind s.agent b) : Behind a b := by
  obtain ⟨hstarted, hpolled⟩ := hb
  have hupdate : ∀ b' p, s.agent.thread b' ≠ s.agent.thread b ∨ p ≠ .notStarted ∧ p ≠ .polling →
      Function.update s.agent.thread b' p b ≠ .notStarted ∧ Function.update s.agent.thread b' p b ≠ .polling := by
    intro b' p hp
    by_cases heq : b = b'
    · subst heq
      rw [Function.update_self]
      exact hp.resolve_left fun hne => hne rfl
    · rw [Function.update_of_ne heq]
      exact ⟨hstarted, hpolled⟩
  cases moves_of_step h with
  | dropped hthread _ => exact hupdate _ _ (.inr ⟨by simp, by simp⟩)
  | started hthread _ _ => exact hupdate _ _ (.inl (hthread ▸ hstarted.symm))
  | requested hthread _ => exact hupdate _ _ (.inr ⟨by simp, by simp⟩)
  | marked hthread => exact hupdate _ _ (.inr ⟨by simp, by simp⟩)
  | finished hthread => exact hupdate _ _ (.inr ⟨by simp, by simp⟩)
  | _ => exact ⟨hstarted, hpolled⟩

theorem behind_request {a : AgentMain.State B} {b : B} {sent : Bool}
    (h : AgentMain.step g.agent s.agent (.request b sent) = some a) : Behind a b := by
  cases moves_of_step h
  simp [Behind]

theorem owned_step {a : AgentMain.State B} {e : AgentMain.Event B} (now : Int) (hs : Owned g s.agent.builds s.owner)
    (h : AgentMain.step g.agent s.agent e = some a) : Owned g a.builds (moved g s e now a).owner := by
  cases moves_of_step h with
  | dropped _ hnot =>
      simp only [moved, started, if_pos hnot]
      exact hs
  | @started b _ _ hbuild =>
      simp only [moved, started, if_neg hbuild]
      intro n ctx hctx
      rw [Dict.lookup_insert_if] at hctx
      split at hctx
      · rename_i hn
        cases hctx
        exact ⟨b, by rw [hn, Function.update_self], rfl⟩
      · rename_i hn
        rw [Function.update_of_ne hn]
        exact hs n ctx hctx
  | marked _ => exact owned_markWaiting hs _
  | finished _ => exact owned_erase hs _
  | taken _ _ _ => exact owned_erase hs _
  | _ => exact hs

end Agent

section Condition

def Due (s : State K B) (now : Int) : Prop := g.repoPath ≠ [] ∧ g.specialMdIntervalSec ≤ elapsed now s.lastSpecialCheck

-- The timer does not run out twice on one change, and the build that the loop names has been looked at by its own
-- thread, which found something else.
def Paced (s : State K B) : Event K B → Prop
  | .check now => Due g s now → s.repo.changed = true → s.looked ≠ some s.stretch
  | .report entries true => ∀ b ∈ concerned s entries, s.inspected b ≠ none ∧ s.inspected b ≠ some s.found
  | _ => True

def Fresh (s : State K B) : Event K B → Prop
  | .report entries true =>
      ∀ n, s.found = some n → ∀ r ∈ s.sent, r.stretch = n → r.build ≠ concerned s entries
  | .agent (.request b true) _ =>
      ∀ n, s.inspected b = some (some n) → ∀ r ∈ s.sent, r.loop = true → r.stretch = n → r.build ≠ some b
  | _ => True

def Reached (s : State K B) (n : Nat) : Prop := n ≤ s.stretch ∧ (n = s.stretch → s.looked = some s.stretch)

structure Apart (s : State K B) : Prop where
  reached : ∀ r ∈ s.sent, r.loop = true → Reached s r.stretch
  found : ∀ n, s.found = some n → Reached s n ∧ ∀ r ∈ s.sent, r.loop = true → r.stretch ≠ n
  named : ∀ r ∈ s.sent, r.loop = true → ∀ b, r.build = some b → ∃ x, s.inspected b = some x ∧ x ≠ some r.stretch
  threads : ∀ r ∈ s.sent, r.loop = false → ∃ b, r.build = some b ∧ s.inspected b = some (some r.stretch)

variable {g : Setting K B} {s : State K B}

theorem apart_agent {e : AgentMain.Event B} {now : Int} {a : AgentMain.State B} (hs : Apart s) :
    Apart (moved g s e now a) := by
  have hfound : (moved g s e now a).found = s.found := by unfold moved; split <;> rfl
  have hinspected : (moved g s e now a).inspected = s.inspected := by unfold moved; split <;> rfl
  have hreached : Reached (moved g s e now a) = Reached s := by unfold moved; split <;> rfl
  have hloops : ∀ r ∈ s.sent ++ threadRequests g s e, r.loop = true → r ∈ s.sent := fun r hr hloop => by
    refine (List.mem_append.mp hr).resolve_right fun hr => ?_
    obtain ⟨b, m, text, -, -, -, rfl⟩ := mem_threadRequests hr
    cases hloop
  refine ⟨?_, ?_, ?_, ?_⟩ <;> rw [moved_sent]
  · rw [hreached]
    exact fun r hr hloop => hs.reached r (hloops r hr hloop) hloop
  · rw [hfound, hreached]
    intro n hn
    exact ⟨(hs.found n hn).1, fun r hr hloop => (hs.found n hn).2 r (hloops r hr hloop) hloop⟩
  · rw [hinspected]
    exact fun r hr hloop => hs.named r (hloops r hr hloop) hloop
  · rw [hinspected]
    intro r hr hloop
    rcases List.mem_append.mp hr with hr | hr
    · exact hs.threads r hr hloop
    · obtain ⟨b, m, text, -, hseen, -, rfl⟩ := mem_threadRequests hr
      exact ⟨b, rfl, hseen⟩

theorem apart_repo {r : Repo K} (hs : Apart s) : Apart { s with repo := r, stretch := s.stretch + 1 } := by
  have hbehind : ∀ n, Reached s n → Reached { s with repo := r, stretch := s.stretch + 1 } n :=
    fun n hn => ⟨hn.1.trans (Nat.le_succ _), fun heq => absurd heq (Nat.lt_succ_of_le hn.1).ne⟩
  exact ⟨fun q hq hloop => hbehind _ (hs.reached q hq hloop), fun n hn => (hs.found n hn).imp_left (hbehind n), hs.named,
    hs.threads⟩

theorem apart_check {now : Int} (hs : Apart s) (hquiet : s.repo.changed = true → s.looked ≠ some s.stretch) :
    Apart { s with now := now, woken := now, lastSpecialCheck := now, looked := some s.stretch, found := detect s } := by
  refine ⟨fun r hr hloop => ⟨(hs.reached r hr hloop).1, fun _ => rfl⟩, fun n hn => ?_, hs.named, hs.threads⟩
  simp only [detect] at hn
  split at hn
  · rename_i hchanged
    cases hn
    exact ⟨⟨le_rfl, fun _ => rfl⟩, fun r hr hloop heq => hquiet hchanged ((hs.reached r hr hloop).2 heq)⟩
  · cases hn

theorem apart_report {entries : List Entry} {sent : Bool} (hs : Apart s) (he : Paced g s (.report entries sent)) :
    Apart { s with found := none, sent := s.sent ++ loopRequests g s entries sent } := by
  constructor
  · intro r hr hloop
    rcases List.mem_append.mp hr with hr | hr
    · exact hs.reached r hr hloop
    · cases sent with
      | false => cases hr
      | true =>
          obtain ⟨n, text, hfound, -, rfl⟩ := mem_loopRequests hr
          exact (hs.found n hfound).1
  · intro n hn
    cases hn
  · intro r hr hloop b hb
    rcases List.mem_append.mp hr with hr | hr
    · exact hs.named r hr hloop b hb
    · cases sent with
      | false => cases hr
      | true =>
          obtain ⟨n, text, hfound, -, rfl⟩ := mem_loopRequests hr
          obtain ⟨hlooked, hother⟩ := he b hb
          obtain ⟨x, hx⟩ := Option.ne_none_iff_exists'.mp hlooked
          rw [hx, hfound] at hother
          exact ⟨x, hx, fun heq => hother (congrArg some heq)⟩
  · intro r hr hloop
    rcases List.mem_append.mp hr with hr | hr
    · exact hs.threads r hr hloop
    · obtain ⟨n, text, -, -, rfl⟩ := mem_loopRequests hr
      cases hloop

theorem fresh_of_paced {e : Event K B} (hs : Apart s) (he : Paced g s e) : Fresh s e := by
  unfold Fresh
  split
  · rename_i entries
    intro n hfound r hr hstretch hbuild
    cases hloop : r.loop with
    | true => exact (hs.found n hfound).2 r hr hloop hstretch
    | false =>
        obtain ⟨b, hb, hseen⟩ := hs.threads r hr hloop
        rw [hstretch, ← hfound] at hseen
        exact (he b (hbuild.symm.trans hb)).2 hseen
  · rename_i b now
    intro n hinspected r hr hloop hstretch hbuild
    obtain ⟨x, hx, hne⟩ := hs.named r hr hloop b hbuild
    rw [hinspected, Option.some.injEq] at hx
    exact hne (hx ▸ congrArg some hstretch.symm)
  · trivial

variable [DecidableEq B]

-- A thread looks once, so what it has seen stays.
theorem apart_inspect {b : B} {x : Option Nat} (hs : Apart s) (hnone : s.inspected b = none) :
    Apart { s with inspected := Function.update s.inspected b (some x) } := by
  have hkeep : ∀ b' y, s.inspected b' = some y → Function.update s.inspected b (some x) b' = some y := by
    intro b' y hy
    rw [Function.update_of_ne (fun heq => by rw [heq, hnone] at hy; cases hy)]
    exact hy
  refine ⟨hs.reached, hs.found, fun r hr hloop b' hb' => ?_, fun r hr hloop => ?_⟩
  · obtain ⟨y, hy, hne⟩ := hs.named r hr hloop b' hb'
    exact ⟨y, hkeep b' y hy, hne⟩
  · obtain ⟨b', hb', hy⟩ := hs.threads r hr hloop
    exact ⟨b', hb', hkeep b' _ hy⟩

end Condition

section Machine

variable [DecidableEq K] [DecidableEq B]

def step (s : State K B) : Event K B → Option (State K B)
  | .agent e now =>
      if s.now ≤ now ∧ admits s e = true then (AgentMain.step g.agent s.agent e).map (moved g s e now) else none
  | .repo r => if r ≠ s.repo then some { s with repo := r, stretch := s.stretch + 1 } else none
  | .inspect b =>
      match s.agent.thread b, s.inspected b with
      | .polling, none =>
          some { s with
            inspected := Function.update s.inspected b (some (if g.repoPath = [] then none else detect s)) }
      | _, _ => none
  | .check now =>
      if s.agent.client = true ∧ s.found = none ∧ s.now ≤ now ∧ s.woken + 5000000000 ≤ now then
        if g.repoPath = [] ∨ elapsed now s.lastSpecialCheck < g.specialMdIntervalSec then
          some { s with now := now, woken := now }
        else
          some { s with now := now, woken := now, lastSpecialCheck := now, looked := some s.stretch, found := detect s }
      else none
  -- A dump that throws here ends the process.
  | .report entries sent =>
      match s.found, repoReqDump g.agent.cfg (active s entries) with
      | some _, .ok _ =>
          if entries.Perm s.agent.builds.entries then
            some { s with found := none, sent := s.sent ++ loopRequests g s entries sent }
          else none
      | _, _ => none

def machine : Machine (State K B) (Event K B) where
  init :=
    { agent := (AgentMain.machine g.agent).init, owner := fun _ => none, triggered := fun _ => 0, now := g.started
      woken := g.started, lastSpecialCheck := g.started, repo := g.repo, stretch := 0, looked := none, found := none
      inspected := fun _ => none, sent := [] }
  step := step g

def OneRequest (s : State K B) : Prop := (s.sent.map key).Nodup

instance (s : State K B) (now : Int) : Decidable (Due g s now) := inferInstanceAs (Decidable (_ ∧ _))

instance (s : State K B) : (e : Event K B) → Decidable (Paced g s e)
  | .check now => inferInstanceAs (Decidable (Due g s now → s.repo.changed = true → s.looked ≠ some s.stretch))
  | .report entries true => inferInstanceAs
      (Decidable (∀ b ∈ concerned s entries, s.inspected b ≠ none ∧ s.inspected b ≠ some s.found))
  | .agent _ _ | .repo _ | .inspect _ | .report _ false => inferInstanceAs (Decidable True)

section Specs

variable {g : Setting K B} {s t : State K B}

theorem step_agent {e : AgentMain.Event B} {now : Int} (h : step g s (.agent e now) = some t) :
    ∃ a, AgentMain.step g.agent s.agent e = some a ∧ admits s e = true ∧ t = moved g s e now a := by
  simp only [step] at h
  split at h
  · rename_i hadmits
    obtain ⟨a, ha, rfl⟩ := Option.map_eq_some_iff.mp h
    exact ⟨a, ha, hadmits.2, rfl⟩
  · cases h

theorem step_repo {r : Repo K} (h : step g s (.repo r) = some t) :
    t = { s with repo := r, stretch := s.stretch + 1 } := by
  simp only [step] at h
  split at h <;> cases h
  rfl

theorem step_inspect {b : B} (h : step g s (.inspect b) = some t) :
    s.inspected b = none ∧
      t = { s with
        inspected := Function.update s.inspected b (some (if g.repoPath = [] then none else detect s)) } := by
  simp only [step] at h
  split at h
  · rename_i hnone
    cases h
    exact ⟨hnone, rfl⟩
  · cases h

theorem step_check {now : Int} (h : step g s (.check now) = some t) :
    t = { s with now := now, woken := now } ∨
      Due g s now ∧ t =
        { s with now := now, woken := now, lastSpecialCheck := now, looked := some s.stretch, found := detect s } := by
  simp only [step] at h
  split at h
  · split at h
    · cases h
      exact .inl rfl
    · rename_i hdue
      cases h
      rw [not_or, not_lt] at hdue
      exact .inr ⟨hdue, rfl⟩
  · cases h

theorem step_report {entries : List Entry} {sent : Bool} (h : step g s (.report entries sent) = some t) :
    ∃ n text, s.found = some n ∧ repoReqDump g.agent.cfg (active s entries) = .ok text ∧
      entries.Perm s.agent.builds.entries ∧
      t = { s with found := none, sent := s.sent ++ loopRequests g s entries sent } := by
  simp only [step] at h
  split at h
  · rename_i n text hfound hdump
    split at h <;> cases h
    exact ⟨n, text, hfound, hdump, ‹_›, rfl⟩
  · cases h

end Specs

section Invariant

variable {g : Setting K B} {s t : State K B}

theorem inv_init : Inv g (machine g).init where
  owned := fun n ctx h => by simp [machine, AgentMain.machine] at h
  once := fun r h => by cases h
  worded := fun r h => by cases h

theorem sent_step {e : Event K B} (h : step g s e = some t) : t.sent = s.sent ++ requests g s e := by
  cases e with
  | agent e now =>
      obtain ⟨a, -, -, rfl⟩ := step_agent h
      exact moved_sent e now a
  | repo r =>
      rw [step_repo h]
      exact (List.append_nil _).symm
  | inspect b =>
      rw [(step_inspect h).2]
      exact (List.append_nil _).symm
  | check now => rcases step_check h with rfl | ⟨-, rfl⟩ <;> exact (List.append_nil _).symm
  | report entries sent =>
      obtain ⟨n, text, -, -, -, rfl⟩ := step_report h
      rfl

theorem agent_step {e : Event K B} (hs : Owned g s.agent.builds s.owner) (h : step g s e = some t) :
    Owned g t.agent.builds t.owner ∧ ∀ b, Behind s.agent b → Behind t.agent b := by
  cases e with
  | agent e now =>
      obtain ⟨a, ha, -, rfl⟩ := step_agent h
      rw [moved_agent]
      exact ⟨owned_step now hs ha, fun b hb => behind_step ha hb⟩
  | repo r =>
      rw [step_repo h]
      exact ⟨hs, fun b hb => hb⟩
  | inspect b =>
      rw [(step_inspect h).2]
      exact ⟨hs, fun b hb => hb⟩
  | check now => rcases step_check h with rfl | ⟨-, rfl⟩ <;> exact ⟨hs, fun b hb => hb⟩
  | report entries sent =>
      obtain ⟨n, text, -, -, -, rfl⟩ := step_report h
      exact ⟨hs, fun b hb => hb⟩

theorem requests_step {e : Event K B} (hs : Owned g s.agent.builds s.owner) (h : step g s e = some t) {r : Request B}
    (hr : r ∈ requests g s e) : (r.loop = false → ∀ b, r.build = some b → Behind t.agent b) ∧ Worded g r := by
  cases e with
  | agent e now =>
      obtain ⟨a, ha, -, rfl⟩ := step_agent h
      obtain ⟨b, n, text, rfl, -, hdump, rfl⟩ := mem_threadRequests hr
      refine ⟨fun _ b' hb' => ?_, hdump⟩
      cases hb'
      rw [moved_agent]
      exact behind_request ha
  | report entries sent =>
      obtain ⟨-, -, -, -, hperm, -⟩ := step_report h
      obtain ⟨n, text, -, hdump, rfl⟩ := mem_loopRequests hr
      rw [active_eq hs hperm] at hdump
      exact ⟨fun hloop => (by cases hloop), hdump⟩
  | _ => cases hr

theorem inv_step {e : Event K B} (hs : Inv g s) (h : step g s e = some t) : Inv g t := by
  obtain ⟨howned, hbehind⟩ := agent_step hs.owned h
  refine ⟨howned, ?_, ?_⟩
  · rw [sent_step h]
    intro r hr hloop b hb
    rcases List.mem_append.mp hr with hr | hr
    · exact hbehind b (hs.once r hr hloop b hb)
    · exact (requests_step hs.owned h hr).1 hloop b hb
  · rw [sent_step h]
    intro r hr
    rcases List.mem_append.mp hr with hr | hr
    · exact hs.worded r hr
    · exact (requests_step hs.owned h hr).2

theorem requests_worded (h : (machine g).Reachable s) : ∀ r ∈ s.sent, Worded g r :=
  ((machine g).invariant inv_init (fun hs h => inv_step hs h) h).worded

end Invariant

section Once

variable {g : Setting K B} {s t : State K B}

theorem oneRequest_request {b : B} {now : Int} (hs : Inv g s) (hone : OneRequest s)
    (h : step g s (.agent (.request b true) now) = some t) :
    OneRequest t ↔ Fresh s (.agent (.request b true) now) := by
  obtain ⟨a, ha, hadmits, -⟩ := step_agent h
  obtain ⟨n, hn⟩ : ∃ n, s.inspected b = some (some n) := by
    obtain ⟨n, hn⟩ := Option.isSome_iff_exists.mp hadmits
    obtain ⟨seen, hseen, rfl⟩ := Option.bind_eq_some_iff.mp hn
    exact ⟨n, hseen⟩
  cases moves_of_step ha with
  | @requested _ _ text hthread hdump =>
      have hsent : requests g s (.agent (.request b true) now) = [⟨n, some b, false, text⟩] := by
        simp only [requests, threadRequests, hn, hdump]
      rw [OneRequest, sent_step h, hsent, nodup_append_iff]
      constructor
      · rintro ⟨-, hfresh⟩ m hm r hr - rfl
        rw [hn] at hm
        cases hm
        exact hfresh r hr rfl
      · refine fun hfresh => ⟨hone, fun r hr hstretch hbuild => ?_⟩
        cases hloop : r.loop with
        | true => exact hfresh n hn r hr hloop hstretch hbuild
        -- The thread of the build is behind its one request.
        | false => exact (hs.once r hr hloop b hbuild).2 hthread

theorem oneRequest_report {entries : List Entry} (hone : OneRequest s)
    (h : step g s (.report entries true) = some t) : OneRequest t ↔ Fresh s (.report entries true) := by
  obtain ⟨n, text, hfound, hdump, -, -⟩ := step_report h
  have hsent : requests g s (.report entries true) = [⟨n, concerned s entries, true, text⟩] := by
    simp only [requests, loopRequests, hfound, hdump]
  rw [OneRequest, sent_step h, hsent, nodup_append_iff]
  constructor
  · rintro ⟨-, hfresh⟩ m hm r hr rfl
    rw [hfound] at hm
    cases hm
    exact hfresh r hr rfl
  · exact fun hfresh => ⟨hone, fun r hr hstretch => hfresh n hfound r hr hstretch⟩

theorem oneRequest_step {e : Event K B} (hs : Inv g s) (hone : OneRequest s) (h : step g s e = some t) :
    OneRequest t ↔ Fresh s e := by
  by_cases hrequest : ∃ b now, e = .agent (.request b true) now
  · obtain ⟨b, now, rfl⟩ := hrequest
    exact oneRequest_request hs hone h
  · by_cases hreport : ∃ entries, e = .report entries true
    · obtain ⟨entries, rfl⟩ := hreport
      exact oneRequest_report hone h
    · push Not at hrequest hreport
      refine iff_of_true ?_ ?_
      · rw [OneRequest, sent_step h, requests_eq_nil hrequest hreport, List.append_nil]
        exact hone
      · unfold Fresh
        split
        · exact absurd rfl (hreport _)
        · exact absurd rfl (hrequest _ _)
        · trivial

theorem apart_init : Apart (machine g).init where
  reached := fun r h => by cases h
  found := fun n h => by cases h
  named := fun r h => by cases h
  threads := fun r h => by cases h

theorem apart_step {e : Event K B} (hs : Apart s) (he : Paced g s e) (h : step g s e = some t) : Apart t := by
  cases e with
  | agent e now =>
      obtain ⟨a, -, -, rfl⟩ := step_agent h
      exact apart_agent hs
  | repo r =>
      rw [step_repo h]
      exact apart_repo hs
  | inspect b =>
      obtain ⟨hnone, rfl⟩ := step_inspect h
      exact apart_inspect hs hnone
  | check now =>
      rcases step_check h with rfl | ⟨hdue, rfl⟩
      · exact ⟨hs.reached, hs.found, hs.named, hs.threads⟩
      · exact apart_check hs (he hdue)
  | report entries sent =>
      obtain ⟨n, text, -, -, -, rfl⟩ := step_report h
      exact apart_report hs he

theorem one_request_of_paced {es : List (Event K B)} (h : (machine g).Guarded (Paced g) (machine g).init es) :
    (machine g).Always OneRequest (machine g).init es := by
  refine (machine g).always_of_guarded (I := fun s => Inv g s ∧ OneRequest s ∧ Apart s) ?_ (fun hs => hs.2.1)
    ⟨inv_init, List.nodup_nil, apart_init⟩ h
  rintro s e t ⟨hs, hone, hapart⟩ he hstep
  exact ⟨inv_step hs hstep, (oneRequest_step hs hone hstep).mpr (fresh_of_paced hapart he), apart_step hapart he hstep⟩

end Once

end Machine

section Sample

def sampleSetting : Setting Nat Bool where
  agent :=
    { nl := { parse := fun text => (decodeUtf8 text).bind loads, ofDouble := fun _ => 0, boolAsLongLong := true }
      cfg := { agentId := [97], jenkinsUrl := str "http://jenkins" }
      context := fun b =>
        { issue := if b then str "I-2" else str "I-1"
          project := str "app"
          jobName := str "app-build"
          buildNumber := if b then 42 else 41
          waitingReview := false } }
  repoPath := [47, 114]
  specialMdIntervalSec := 30
  started := 0
  repo := ⟨0, true⟩

def sampleEntry : Entry := ⟨41, sampleSetting.agent.context false⟩

def otherEntry : Entry := ⟨42, sampleSetting.agent.context true⟩

-- Three pushes: the thread of each build asks for what it finds, the loop for what is there when its timer runs out.
def pushedRun : List (Event Nat Bool) :=
  [.agent (.trigger false) 1000000000, .inspect false, .agent (.request false true) 2000000000, .repo ⟨1, true⟩,
    .check 30000000000, .report [sampleEntry] true, .check 35000000000, .repo ⟨2, true⟩, .check 60000000000,
    .report [sampleEntry] true, .agent (.trigger true) 61000000000, .inspect true,
    .agent (.request true true) 62000000000, .repo ⟨3, true⟩, .check 90000000000,
    .report [sampleEntry, otherEntry] true]

theorem one_request_of_paced_pushedRun :
    (machine sampleSetting).IsRun pushedRun ∧
      (machine sampleSetting).Always OneRequest (machine sampleSetting).init pushedRun :=
  ⟨by decide +kernel, one_request_of_paced (by decide +kernel)⟩

def idleRun : List (Event Nat Bool) :=
  [.check 30000000000, .report [] true, .check 60000000000, .report [] true]

def buildRun : List (Event Nat Bool) :=
  [.agent (.trigger false) 1000000000, .check 30000000000, .report [sampleEntry] true, .inspect false,
    .agent (.request false true) 31000000000, .check 60000000000, .report [sampleEntry] true]

theorem not_always_of_keys {es : List (Event Nat Bool)} {ks : List (Nat × Option Bool)}
    (h : ((machine sampleSetting).exec (machine sampleSetting).init es).map (fun s => s.sent.map key) = some ks)
    (hks : ¬ks.Nodup) :
    (machine sampleSetting).IsRun es ∧ ¬(machine sampleSetting).Always OneRequest (machine sampleSetting).init es := by
  obtain ⟨t, ht, rfl⟩ := Option.map_eq_some_iff.mp h
  exact ⟨by rw [Machine.IsRun, ht]; rfl, fun halways => hks ((machine sampleSetting).always_exec halways ht)⟩

theorem loop_asks_again :
    ((machine sampleSetting).IsRun idleRun ∧
        ¬(machine sampleSetting).Always OneRequest (machine sampleSetting).init idleRun) ∧
      (machine sampleSetting).IsRun buildRun ∧
        ¬(machine sampleSetting).Always OneRequest (machine sampleSetting).init buildRun := by
  have hidle : ((machine sampleSetting).exec (machine sampleSetting).init idleRun).map (fun s => s.sent.map key) =
      some [(0, none), (0, none)] := by decide +kernel
  have hbuild : ((machine sampleSetting).exec (machine sampleSetting).init buildRun).map (fun s => s.sent.map key) =
      some [(0, some false), (0, some false), (0, some false)] := by decide +kernel
  exact ⟨not_always_of_keys hidle (by decide), not_always_of_keys hbuild (by decide)⟩

end Sample

end Agent.ReviewRequests
