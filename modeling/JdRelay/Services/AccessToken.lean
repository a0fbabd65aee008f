import JdRelay.Base.Runs
import JdRelay.Base.Text

namespace Services.AccessToken
open Text Runs

-- B are the calls of get_access_token, T is what time.time() gives; nothing is asked of its order and arithmetic.
variable {B T : Type}

structure Cache (T : Type) where
  accessToken : Option Str
  tokenExpiresAt : T

def truthy (token : Option Str) : Bool := token.any fun s => s ≠ []

def Cache.valid [LT T] [DecidableLT T] [Sub T] [IntCast T] (c : Cache T) (now : T) : Bool :=
  truthy c.accessToken && decide (now < c.tokenExpiresAt - ((300 : Int) : T))

-- access_token and expire_in of the response body; none where the SDK raises.
abbrev Response := Option (Option Str × Option Int)

-- none where DingTalkError is raised.
def fetchTokenSync (response : Response) : Option (Option Str × Int) :=
  response.map fun body => (body.1, (body.2.filter fun n => n ≠ 0).getD 7200)

inductive Phase where
  | start
  | waiting
  | queued
  | running
  | finished (result : Option (Option Str × Int))
  | returned (token : Option Str)
  | failed
  deriving DecidableEq

structure Fetch (B : Type) where
  heldAtStart : Option B
  heldAtEnd : Option B
  result : Option (Option Str × Int)

-- checked is the call's last reading of clock and cache, found the cache as it got the lock.
structure Call (B T : Type) where
  phase : Phase
  checked : Option (T × Cache T)
  found : Option (Cache T)
  fetch : Option (Fetch B)

structure System (B T : Type) where
  cache : Cache T
  holder : Option B
  call : B → Call B T

inductive Event (B T : Type) where
  | enter (b : B) (now : T)
  | obtain (b : B) (now : T)
  | beginFetch (b : B)
  | endFetch (b : B) (response : Response)
  | resume (b : B) (now : T)

def Event.actor : Event B T → B
  | .enter b _ | .obtain b _ | .beginFetch b | .endFetch b _ | .resume b _ => b

section Steps

variable [DecidableEq B]

def System.put (s : System B T) (b : B) (c : Call B T) : System B T := { s with call := Function.update s.call b c }

def enter [LT T] [DecidableLT T] [Sub T] [IntCast T] (s : System B T) (b : B) (now : T) : System B T :=
  s.put b { s.call b with
    phase := if s.cache.valid now then .returned s.cache.accessToken else .waiting
    checked := some (now, s.cache) }

-- The lock is left at once where the second check finds a valid token.
def obtain [LT T] [DecidableLT T] [Sub T] [IntCast T] (s : System B T) (b : B) (now : T) : System B T :=
  { s.put b { s.call b with
      phase := if s.cache.valid now then .returned s.cache.accessToken else .queued
      checked := some (now, s.cache)
      found := some s.cache } with
    holder := if s.cache.valid now then none else some b }

def beginFetch (s : System B T) (b : B) : System B T :=
  s.put b { s.call b with phase := .running, fetch := some ⟨s.holder, none, none⟩ }

def endFetch (s : System B T) (b : B) (response : Response) : System B T :=
  s.put b { s.call b with
    phase := .finished (fetchTokenSync response)
    fetch := (s.call b).fetch.map fun f => { f with heldAtEnd := s.holder, result := fetchTokenSync response } }

def resume [Add T] [IntCast T] (s : System B T) (b : B) (now : T) : Option (Option Str × Int) → System B T
  | some (token, expireIn) =>
      { s.put b { s.call b with phase := .returned token } with
        cache := ⟨token, now + (expireIn : T)⟩
        holder := none }
  | none => { s.put b { s.call b with phase := .failed } with holder := none }

variable [LT T] [DecidableLT T] [Sub T] [Add T] [IntCast T]

def step (s : System B T) : Event B T → Option (System B T)
  | .enter b now => if (s.call b).phase = .start then some (enter s b now) else none
  | .obtain b now => if (s.call b).phase = .waiting ∧ s.holder = none then some (obtain s b now) else none
  | .beginFetch b => if (s.call b).phase = .queued then some (beginFetch s b) else none
  | .endFetch b response => if (s.call b).phase = .running then some (endFetch s b response) else none
  | .resume b now =>
      match (s.call b).phase with
      | .finished result => some (resume s b now result)
      | _ => none

def machine : Machine (System B T) (Event B T) where
  init := { cache := ⟨none, ((0 : Int) : T)⟩, holder := none, call := fun _ => ⟨.start, none, none, none⟩ }
  step := step

end Steps

section Calls

def Phase.Fetching : Phase → Prop
  | .queued | .running | .finished _ => True
  | _ => False

def Call.Fetched (b : B) (c : Call B T) (token : Option Str) : Prop :=
  ∃ expireIn, c.fetch = some ⟨some b, some b, some (token, expireIn)⟩

variable [LT T] [DecidableLT T] [Sub T] [IntCast T]

def Call.Checked (c : Call B T) (token : Option Str) : Prop :=
  ∃ now cache, c.checked = some (now, cache) ∧ cache.valid now = true ∧ cache.accessToken = token

def Call.Told (b : B) (c : Call B T) : Prop :=
  match c.phase with
  | .running => c.fetch = some ⟨some b, none, none⟩
  | .finished result => c.fetch = some ⟨some b, some b, result⟩
  | .returned token => c.Fetched b token ∨ c.Checked token
  | _ => True

structure Call.Sound (cache : Cache T) (holder : Option B) (b : B) (c : Call B T) : Prop where
  holds : c.phase.Fetching → holder = some b
  kept : c.phase.Fetching → c.found = some cache
  told : c.Told b

def Inv (s : System B T) : Prop := ∀ b, (s.call b).Sound s.cache s.holder b

theorem Call.Sound.other {cache cache' : Cache T} {holder holder' : Option B} {b : B} {c : Call B T}
    (h : c.Sound cache holder b) (hb : holder ≠ some b) : c.Sound cache' holder' b :=
  ⟨fun hf => absurd (h.holds hf) hb, fun hf => absurd (h.holds hf) hb, h.told⟩

theorem Call.Sound.idle {cache : Cache T} {holder : Option B} {b : B} {c : Call B T} (hf : ¬ c.phase.Fetching)
    (ht : c.Told b) : c.Sound cache holder b := ⟨fun h => absurd h hf, fun h => absurd h hf, ht⟩

variable {s : System B T}

theorem single_flight (hs : Inv s) {b c : B} (hb : (s.call b).phase = .running) (hc : (s.call c).phase = .running) : b = c := by
  have hheld : s.holder = some b := (hs b).holds (by rw [hb]; trivial)
  have hheld' : s.holder = some c := (hs c).holds (by rw [hc]; trivial)
  exact Option.some.inj (hheld.symm.trans hheld')

theorem returned_grounds (hs : Inv s) {b : B} {token : Option Str} (hb : (s.call b).phase = .returned token) :
    (s.call b).Fetched b token ∨ (s.call b).Checked token := by
  have htold := (hs b).told
  rwa [Call.Told, hb] at htold

variable [DecidableEq B]

theorem inv_update {cache : Cache T} {holder : Option B} {b : B} {c : Call B T} (hc : c.Sound cache holder b)
    (hother : ∀ a, a ≠ b → (s.call a).Sound cache holder a) : Inv ⟨cache, holder, Function.update s.call b c⟩ := by
  intro a
  by_cases hab : a = b
  · subst hab
    simpa using hc
  · simpa [hab] using hother a hab

theorem inv_enter (hs : Inv s) (b : B) (now : T) : Inv (enter s b now) := by
  refine inv_update ?_ fun a _ => hs a
  by_cases hvalid : s.cache.valid now = true
  · simp only [hvalid, if_true]
    exact .idle id (.inr ⟨now, s.cache, rfl, hvalid, rfl⟩)
  · simp only [hvalid]
    exact .idle id trivial

theorem inv_obtain (hs : Inv s) (hholder : s.holder = none) (b : B) (now : T) : Inv (obtain s b now) := by
  have hother : ∀ a, s.holder ≠ some a := fun a h => by
    rw [hholder] at h
    cases h
  refine inv_update ?_ fun a _ => (hs a).other (hother a)
  by_cases hvalid : s.cache.valid now = true
  · simp only [hvalid, if_true]
    exact .idle id (.inr ⟨now, s.cache, rfl, hvalid, rfl⟩)
  · simp only [hvalid]
    exact ⟨fun _ => rfl, fun _ => rfl, trivial⟩

theorem inv_beginFetch (hs : Inv s) {b : B} (hphase : (s.call b).phase = .queued) : Inv (beginFetch s b) := by
  have hfetching : (s.call b).phase.Fetching := by rw [hphase]; trivial
  have hholder := (hs b).holds hfetching
  refine inv_update ⟨fun _ => hholder, fun _ => (hs b).kept hfetching, ?_⟩ fun a _ => hs a
  exact congrArg (fun h => some (Fetch.mk h none none)) hholder

theorem inv_endFetch (hs : Inv s) {b : B} (hphase : (s.call b).phase = .running) (response : Response) :
    Inv (endFetch s b response) := by
  have hfetching : (s.call b).phase.Fetching := by rw [hphase]; trivial
  have hholder := (hs b).holds hfetching
  have htold := (hs b).told
  rw [Call.Told, hphase] at htold
  refine inv_update ⟨fun _ => hholder, fun _ => (hs b).kept hfetching, ?_⟩ fun a _ => hs a
  simp only [Call.Told, htold, hholder, Option.map_some]

end Calls

section Runs

variable [DecidableEq B] [LT T] [DecidableLT T] [Sub T] [Add T] [IntCast T] {s t : System B T}

inductive Moves (s : System B T) : Event B T → System B T → Prop where
  | enter {b : B} {now : T} (hphase : (s.call b).phase = .start) : Moves s (.enter b now) (enter s b now)
  | obtain {b : B} {now : T} (hphase : (s.call b).phase = .waiting) (hholder : s.holder = none) :
      Moves s (.obtain b now) (obtain s b now)
  | beginFetch {b : B} (hphase : (s.call b).phase = .queued) : Moves s (.beginFetch b) (beginFetch s b)
  | endFetch {b : B} {response : Response} (hphase : (s.call b).phase = .running) :
      Moves s (.endFetch b response) (endFetch s b response)
  | resume {b : B} {now : T} {result : Option (Option Str × Int)} (hphase : (s.call b).phase = .finished result) :
      Moves s (.resume b now) (resume s b now result)

theorem moves_of_step {e : Event B T} (h : machine.step s e = some t) : Moves s e t := by
  change step s e = some t at h
  cases e with
  | enter b now =>
      obtain ⟨hphase, ht⟩ := Option.ite_none_right_eq_some.mp h
      exact Option.some.inj ht ▸ .enter hphase
  | obtain b now =>
      obtain ⟨⟨hphase, hholder⟩, ht⟩ := Option.ite_none_right_eq_some.mp h
      exact Option.some.inj ht ▸ .obtain hphase hholder
  | beginFetch b =>
      obtain ⟨hphase, ht⟩ := Option.ite_none_right_eq_some.mp h
      exact Option.some.inj ht ▸ .beginFetch hphase
  | endFetch b response =>
      obtain ⟨hphase, ht⟩ := Option.ite_none_right_eq_some.mp h
      exact Option.some.inj ht ▸ .endFetch hphase
  | resume b now =>
      rw [step] at h
      split at h
      · exact Option.some.inj h ▸ .resume ‹_›
      · cases h

theorem inv_resume (hs : Inv s) {b : B} {result : Option (Option Str × Int)} (hphase : (s.call b).phase = .finished result)
    (now : T) : Inv (resume s b now result) := by
  have hfetching : (s.call b).phase.Fetching := by rw [hphase]; trivial
  have hother : ∀ a, a ≠ b → s.holder ≠ some a := fun a hab h => by
    rw [(hs b).holds hfetching] at h
    exact hab (Option.some.inj h).symm
  have htold := (hs b).told
  rw [Call.Told, hphase] at htold
  cases result with
  | none => exact inv_update (.idle id trivial) fun a hab => (hs a).other (hother a hab)
  | some result => exact inv_update (.idle id (.inl ⟨result.2, htold⟩)) fun a hab => (hs a).other (hother a hab)

theorem inv_step {e : Event B T} (hs : Inv s) (h : machine.step s e = some t) : Inv t := by
  cases moves_of_step h with
  | enter => exact inv_enter hs _ _
  | obtain _ hholder => exact inv_obtain hs hholder _ _
  | beginFetch hphase => exact inv_beginFetch hs hphase
  | endFetch hphase => exact inv_endFetch hs hphase _
  | resume hphase => exact inv_resume hs hphase _

theorem inv_reachable (h : machine.Reachable s) : Inv s :=
  machine.invariant (fun _ => .idle id trivial) inv_step h

theorem call_of_ne {e : Event B T} (h : Moves s e t) {b : B} (hb : b ≠ e.actor) : t.call b = s.call b := by
  cases h with
  | enter => exact Function.update_of_ne hb _ _
  | obtain => exact Function.update_of_ne hb _ _
  | beginFetch => exact Function.update_of_ne hb _ _
  | endFetch => exact Function.update_of_ne hb _ _
  | @resume _ _ result =>
      cases result with
      | none => exact Function.update_of_ne hb _ _
      | some result => exact Function.update_of_ne hb _ _

theorem actor_not_returned {e : Event B T} (h : Moves s e t) (token : Option Str) :
    (s.call e.actor).phase ≠ .returned token := by
  intro hreturned
  cases h with
  | enter hphase => cases hphase.symm.trans hreturned
  | obtain hphase => cases hphase.symm.trans hreturned
  | beginFetch hphase => cases hphase.symm.trans hreturned
  | endFetch hphase => cases hphase.symm.trans hreturned
  | resume hphase => cases hphase.symm.trans hreturned

theorem returned_step {e : Event B T} {b : B} {token : Option Str} (hb : (s.call b).phase = .returned token)
    (h : machine.step s e = some t) : t.call b = s.call b := by
  have hmoves := moves_of_step h
  exact call_of_ne hmoves fun heq => actor_not_returned hmoves token (heq ▸ hb)

theorem returned_run {es : List (Event B T)} {b : B} {token : Option Str} : ∀ {s t : System B T},
    (s.call b).phase = .returned token → machine.exec s es = some t → t.call b = s.call b := by
  induction es with
  | nil => intro s t _ h; cases h; rfl
  | cons e es ih =>
      intro s t hb h
      obtain ⟨u, hu, hrest⟩ := machine.exec_cons.mp h
      have hcall := returned_step hb hu
      exact (ih (hcall ▸ hb) hrest).trans hcall

theorem cache_of_failed (hs : Inv s) {b : B} {now : T} (h : machine.step s (.resume b now) = some t)
    (hb : (t.call b).phase = .failed) : t.cache = s.cache ∧ (s.call b).found = some s.cache := by
  cases moves_of_step h with
  | @resume _ _ result hphase =>
      refine ⟨?_, (hs b).kept (by rw [hphase]; trivial)⟩
      cases result with
      | none => rfl
      | some result => simp [resume, System.put] at hb

theorem obtain_valid {b : B} {now : T} (h : machine.step s (.obtain b now) = some t) (hvalid : s.cache.valid now = true) :
    (t.call b).phase = .returned s.cache.accessToken := by
  cases moves_of_step h with
  | obtain => simp [obtain, System.put, hvalid]

theorem token_refresh_sound (h : machine.Reachable s) :
    (∀ b c, (s.call b).phase = .running → (s.call c).phase = .running → b = c) ∧
      (∀ b token, (s.call b).phase = .returned token → (s.call b).Fetched b token ∨ (s.call b).Checked token) ∧
      (∀ b now t, machine.step s (.resume b now) = some t → (t.call b).phase = .failed →
        t.cache = s.cache ∧ (s.call b).found = some s.cache) ∧
      ∀ b now t, machine.step s (.obtain b now) = some t → s.cache.valid now = true →
        (t.call b).phase = .returned s.cache.accessToken ∧ ∀ es u, machine.exec t es = some u → u.call b = t.call b := by
  have hs := inv_reachable h
  refine ⟨fun b c => single_flight hs, fun b token => returned_grounds hs, fun b now t => cache_of_failed hs,
    fun b now t hstep hvalid => ?_⟩
  have hreturned := obtain_valid hstep hvalid
  exact ⟨hreturned, fun es u hexec => returned_run hreturned hexec⟩

end Runs

section Samples

def sample : List (Event Bool Int) :=
  [.enter false 0, .enter true 0, .obtain false 0, .beginFetch false, .endFetch false (some (some (str "t"), none)),
    .resume false 0, .obtain true 1]

theorem sample_phases :
    (machine.exec machine.init sample).map (fun s => ((s.call false).phase, (s.call true).phase)) =
      some (.returned (some (str "t")), .returned (some (str "t"))) := by
  decide

theorem token_refresh_sample :
    ∃ s : System Bool Int, machine.Reachable s ∧
      ∀ b, (s.call b).phase = .returned (some (str "t")) ∧
        ((s.call b).Fetched b (some (str "t")) ∨ (s.call b).Checked (some (str "t"))) := by
  obtain ⟨s, hs, hphases⟩ := Option.map_eq_some_iff.mp sample_phases
  have hreach : machine.Reachable s := ⟨sample, hs⟩
  obtain ⟨hfirst, hsecond⟩ := Prod.mk.inj hphases
  refine ⟨s, hreach, fun b => ?_⟩
  have hb : (s.call b).phase = .returned (some (str "t")) := by
    cases b
    · exact hfirst
    · exact hsecond
  exact ⟨hb, (token_refresh_sound hreach).2.1 b _ hb⟩

end Samples

end Services.AccessToken
