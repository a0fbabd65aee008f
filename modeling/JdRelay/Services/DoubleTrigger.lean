import JdRelay.Base.Runs
import JdRelay.Services.Lifecycle

namespace Services.DoubleTrigger
open Text Json Runs State State.WorkOrderState Lifecycle

-- How send_to_project ends: no agent took the message, one did and was reported, or the call raises.
inductive SendEnd where
  | refused
  | delivered
  | raised (handed : Bool) (e : Exn)
  deriving DecidableEq

namespace SendEnd

def handed : SendEnd → Bool
  | refused => false
  | delivered => true
  | raised handed _ => handed

def reply : SendEnd → Except Exn Bool
  | refused => .ok false
  | delivered => .ok true
  | raised _ e => .error e

end SendEnd

-- Where one trigger_build call stands: awaiting is inside the await of send_to_project.
inductive Trigger where
  | idle
  | awaiting (workOrder : WorkOrderDict)
  | returned
  | stored
  | raised (handed : Bool)

structure Joint (B : Type) where
  order : WorkOrderState
  trigger : B → Trigger
  handed : List B

inductive Event (B : Type) where
  | start (b : B) (fields : WorkOrderDict) (configured : Bool)
  | sent (b : B) (ending : SendEnd)
  | store (b : B)

section Step

variable {B : Type} [DecidableEq B] (reprOf : Value → Str)

def starts (workOrder : WorkOrderDict) (configured : Bool) : Bool :=
  let forwarder := if configured then some (.ok true) else none
  !(RelayService.triggerBuild reprOf ⟨none, forwarder⟩ workOrder).effects.isEmpty

def resumed (workOrder : WorkOrderDict) (ending : SendEnd) : Trigger :=
  match (RelayService.triggerBuild reprOf ⟨none, some ending.reply⟩ workOrder).result with
  | .ok _ => .returned
  | .error _ => .raised ending.handed

def SendEnd.leaves : SendEnd → Trigger
  | .refused => .raised false
  | .delivered => .returned
  | .raised handed _ => .raised handed

def Joint.goto (s : Joint B) (b : B) (p : Trigger) : Joint B := { s with trigger := Function.update s.trigger b p }

def step (s : Joint B) : Event B → Option (Joint B)
  | .start b fields configured =>
      match s.trigger b with
      | .idle =>
          let workOrder := dictOf s.order fields
          some (s.goto b (if starts reprOf workOrder configured then .awaiting workOrder else .raised false))
      | _ => none
  | .sent b ending =>
      match s.trigger b with
      | .awaiting workOrder =>
          some { s.goto b (resumed reprOf workOrder ending) with
            handed := if ending.handed then b :: s.handed else s.handed }
      | _ => none
  | .store b =>
      match s.trigger b with
      | .returned => some { s.goto b .stored with order := building }
      | _ => none

def machine : Machine (Joint B) (Event B) where
  init := { order := approved, trigger := fun _ => .idle, handed := [] }
  step := step reprOf

end Step

section Guard

variable {B : Type}

def HandedOnce (s : Joint B) : Prop := s.handed.length ≤ 1

def Unclaimed (s : Joint B) : Prop :=
  s.order = approved ∧ ∀ b, s.trigger b ≠ .returned ∧ s.trigger b ≠ .raised true

def HandsUnclaimed (s : Joint B) : Event B → Prop
  | .sent _ ending => ending.handed = true → Unclaimed s
  | _ => True

structure Inv (reprOf : Value → Str) (s : Joint B) : Prop where
  claimed : Unclaimed s ↔ s.handed = []
  started : ∀ b workOrder, s.trigger b = .awaiting workOrder → starts reprOf workOrder true = true

end Guard

section Specs

variable {reprOf : Value → Str} {workOrder : WorkOrderDict} {A C : Type}

theorem lift_cases (x : Except Exn A) (f : Replies → A → Outcome C) :
    (∃ e, ∀ replies, (Outcome.lift x >>= f replies) = ⟨[], .error e⟩) ∨
      ∃ a, x = .ok a ∧ ∀ replies, (Outcome.lift x >>= f replies) = f replies a := by
  cases x with
  | error e => exact .inl ⟨e, fun _ => rfl⟩
  | ok a => exact .inr ⟨a, rfl, fun _ => rfl⟩

def awaited (effect : Effect) (failure : Exn) : Option (Except Exn Bool) → Outcome Bool
  | none => .raise (.relayError (str "Forwarder server not configured"))
  | some reply => ⟨[effect], reply.bind fun success => if success then .ok true else .error failure⟩

def triggerPayload (workOrder : WorkOrderDict) (orderNo issue branch : Value) : Str :=
  dumps (.obj
    [(str "work_order_id", orderNo),
      (str "issue", issue),
      (str "project", WorkOrderDict.get workOrder "project" (.str [])),
      (str "branch", branch),
      (str "build_cmd", WorkOrderDict.get workOrder "build_cmd" (.str []))])

def offline (reprOf : Value → Str) (project : Value) : Exn :=
  .relayError (str "No agent online for project '" ++ Python.strOf reprOf project ++ str "'")

theorem triggerBuild_cases (reprOf : Value → Str) (workOrder : WorkOrderDict) :
    (∃ e, ∀ replies, RelayService.triggerBuild reprOf replies workOrder = ⟨[], .error e⟩) ∨
      ∃ effect failure, ∀ replies, RelayService.triggerBuild reprOf replies workOrder =
        awaited effect failure replies.forwarder := by
  unfold RelayService.triggerBuild
  rcases lift_cases (RelayService.currentState workOrder) _ with hraise | ⟨current, -, hgo⟩
  · exact .inl hraise
  simp only [hgo]
  rcases lift_cases (transition current building) _ with hraise | ⟨_, -, hgo⟩
  · exact .inl hraise
  simp only [hgo]
  rcases lift_cases (WorkOrderDict.item workOrder "order_no") _ with hraise | ⟨orderNo, -, hgo⟩
  · exact .inl hraise
  simp only [hgo]
  rcases lift_cases (WorkOrderDict.item workOrder "issue") _ with hraise | ⟨issue, -, hgo⟩
  · exact .inl hraise
  simp only [hgo]
  rcases lift_cases (WorkOrderDict.item workOrder "branch") _ with hraise | ⟨branch, -, hgo⟩
  · exact .inl hraise
  simp only [hgo]
  refine .inr ⟨.sendToProject (WorkOrderDict.get workOrder "project" (.str [])) .buildTrigger
    (triggerPayload workOrder orderNo issue branch), offline reprOf (WorkOrderDict.get workOrder "project" (.str [])),
    fun replies => ?_⟩
  rcases replies.forwarder with _ | _ | success
  · rfl
  · rfl
  · cases success <;> rfl

theorem starts_iff {configured : Bool} : starts reprOf workOrder configured = true ↔
    configured = true ∧ ∃ effect failure, ∀ replies, RelayService.triggerBuild reprOf replies workOrder =
      awaited effect failure replies.forwarder := by
  rcases triggerBuild_cases reprOf workOrder with ⟨e, hraise⟩ | ⟨effect, failure, hgo⟩
  · refine iff_of_false (fun hstarts => ?_) ?_
    · simp [starts, hraise] at hstarts
    · rintro ⟨-, effect, failure, hgo⟩
      cases (hraise ⟨none, some (.ok true)⟩).symm.trans (hgo _)
  · simp only [starts, hgo]
    cases configured with
    | false => exact iff_of_false nofun (fun h => Bool.false_ne_true h.1)
    | true => exact iff_of_true rfl ⟨rfl, effect, failure, fun _ => rfl⟩

theorem starts_configured {configured : Bool} (h : starts reprOf workOrder configured = true) :
    starts reprOf workOrder true = true :=
  starts_iff.mpr ⟨rfl, (starts_iff.mp h).2⟩

theorem resumed_eq (h : starts reprOf workOrder true = true) (ending : SendEnd) :
    resumed reprOf workOrder ending = ending.leaves := by
  obtain ⟨-, effect, failure, hgo⟩ := starts_iff.mp h
  rw [resumed, hgo]
  cases ending <;> rfl

end Specs

section Run

variable {B : Type} [DecidableEq B] {reprOf : Value → Str} {s t : Joint B} {b : B}

theorem unclaimed_goto {order : WorkOrderState} {handed : List B} {p : Trigger} (hfree : s.trigger b ≠ .returned)
    (hraised : s.trigger b ≠ .raised true) : Unclaimed { s.goto b p with order, handed } ↔
      order = approved ∧ (∀ b, s.trigger b ≠ .returned ∧ s.trigger b ≠ .raised true) ∧
        p ≠ .returned ∧ p ≠ .raised true := by
  refine and_congr_right fun _ => ⟨fun h => ⟨fun b' => ?_, ?_⟩, fun h b' => ?_⟩
  · rcases eq_or_ne b' b with rfl | hne
    · exact ⟨hfree, hraised⟩
    · simpa [Joint.goto, Function.update_of_ne hne] using h b'
  · simpa [Joint.goto] using h b
  · rcases eq_or_ne b' b with rfl | hne
    · simpa [Joint.goto] using h.2
    · simpa [Joint.goto, Function.update_of_ne hne] using h.1 b'

theorem unclaimed_quiet {p : Trigger} (hfree : s.trigger b ≠ .returned) (hraised : s.trigger b ≠ .raised true)
    (hp : p ≠ .returned ∧ p ≠ .raised true) : Unclaimed (s.goto b p) ↔ Unclaimed s := by
  have hall : Unclaimed { s.goto b p with order := s.order, handed := s.handed } ↔ _ := unclaimed_goto hfree hraised
  exact hall.trans ⟨fun h => ⟨h.1, h.2.1⟩, fun h => ⟨h.1, h.2, hp⟩⟩

theorem started_goto (hs : Inv reprOf s) {p : Trigger} {order : WorkOrderState} {handed : List B}
    (hp : ∀ workOrder, p = .awaiting workOrder → starts reprOf workOrder true = true) :
    ∀ b' workOrder, ({ s.goto b p with order, handed } : Joint B).trigger b' = .awaiting workOrder →
      starts reprOf workOrder true = true := by
  intro b' workOrder h
  rcases eq_or_ne b' b with rfl | hne
  · exact hp workOrder (by simpa [Joint.goto] using h)
  · exact hs.started b' workOrder (by simpa [Joint.goto, Function.update_of_ne hne] using h)

theorem inv_init : Inv reprOf (machine reprOf : Machine (Joint B) (Event B)).init where
  claimed := iff_of_true ⟨rfl, fun _ => ⟨nofun, nofun⟩⟩ rfl
  started := nofun

theorem step_sent {ending : SendEnd} (hs : Inv reprOf s) (h : step reprOf s (.sent b ending) = some t) :
    (∃ workOrder, s.trigger b = .awaiting workOrder) ∧
      t = { s.goto b ending.leaves with
        handed := if ending.handed then b :: s.handed else s.handed } := by
  simp only [step] at h
  split at h
  · rename_i workOrder hawaiting
    rw [resumed_eq (hs.started b workOrder hawaiting)] at h
    exact ⟨⟨workOrder, hawaiting⟩, (Option.some.inj h).symm⟩
  · cases h

theorem inv_sent {ending : SendEnd} (hs : Inv reprOf s) (h : step reprOf s (.sent b ending) = some t) :
    Inv reprOf t := by
  obtain ⟨⟨workOrder, hawaiting⟩, rfl⟩ := step_sent hs h
  have hfree : s.trigger b ≠ .returned := by rw [hawaiting]; nofun
  have hraised : s.trigger b ≠ .raised true := by rw [hawaiting]; nofun
  refine ⟨?_, started_goto hs fun _ hp => ?_⟩
  · cases ending with
    | refused => exact (unclaimed_quiet (p := .raised false) hfree hraised ⟨nofun, nofun⟩).trans hs.claimed
    | delivered => exact iff_of_false (fun hun => ((unclaimed_goto hfree hraised).mp hun).2.2.1 rfl) nofun
    | raised handed e =>
        cases handed with
        | true => exact iff_of_false (fun hun => ((unclaimed_goto hfree hraised).mp hun).2.2.2 rfl) nofun
        | false => exact (unclaimed_quiet (p := .raised false) hfree hraised ⟨nofun, nofun⟩).trans hs.claimed
  · cases ending <;> cases hp

theorem inv_step {e : Event B} (hs : Inv reprOf s) (h : step reprOf s e = some t) : Inv reprOf t := by
  cases e with
  | start b fields configured =>
      simp only [step] at h
      split at h
      · rename_i hidle
        have hfree : s.trigger b ≠ .returned := by rw [hidle]; nofun
        have hraised : s.trigger b ≠ .raised true := by rw [hidle]; nofun
        cases h
        refine ⟨?_, started_goto hs fun workOrder hp => ?_⟩
        · refine (unclaimed_quiet hfree hraised ?_).trans hs.claimed
          split <;> exact ⟨nofun, nofun⟩
        · split at hp
          · rename_i hstarts
            cases hp
            exact starts_configured hstarts
          · cases hp
      · cases h
  | sent b ending => exact inv_sent hs h
  | store b =>
      simp only [step] at h
      split at h
      · rename_i hreturned
        cases h
        have hclaimed : s.handed ≠ [] := fun hnil => (hs.claimed.mpr hnil).2 b |>.1 hreturned
        exact ⟨iff_of_false (fun hun => by cases hun.1) hclaimed, started_goto hs nofun⟩
      · cases h

theorem handedOnce_step {e : Event B} (hs : Inv reprOf s) (hp : HandedOnce s) (h : step reprOf s e = some t) :
    HandedOnce t ↔ HandsUnclaimed s e := by
  cases e with
  | start b fields configured =>
      simp only [step] at h
      split at h <;> cases h
      exact iff_of_true hp trivial
  | sent b ending =>
      obtain ⟨-, rfl⟩ := step_sent hs h
      cases hhanded : ending.handed with
      | false => exact iff_of_true (by simpa [HandedOnce, hhanded] using hp) (by simp [HandsUnclaimed, hhanded])
      | true =>
          simp only [HandedOnce, HandsUnclaimed, hhanded, if_true, forall_const, hs.claimed, List.length_cons]
          rw [← List.length_eq_zero_iff]
          omega
  | store b =>
      simp only [step] at h
      split at h <;> cases h
      exact iff_of_true hp trivial

theorem handed_once_iff {es : List (Event B)} (hrun : (machine reprOf).IsRun es) :
    (machine reprOf).Always HandedOnce (machine reprOf : Machine (Joint B) (Event B)).init es ↔
      (machine reprOf).Guarded HandsUnclaimed (machine reprOf : Machine (Joint B) (Event B)).init es :=
  (machine reprOf).always_iff_guarded inv_step handedOnce_step inv_init (Nat.zero_le 1) hrun

end Run

def overlappingRun : List (Event Bool) :=
  [.start false plainOrder true, .start true plainOrder true, .sent false .delivered, .sent true .delivered,
    .store false, .store true]

theorem overlapping_handed_twice : ∃ s, (machine fun _ => []).exec (machine fun _ => []).init overlappingRun = some s ∧
    s.handed = [true, false] :=
  ⟨_, rfl, rfl⟩

theorem handed_once_iff_overlappingRun :
    (machine fun _ => []).Always HandedOnce (machine fun _ => [] : Machine (Joint Bool) (Event Bool)).init
        overlappingRun ↔
      (machine fun _ => []).Guarded HandsUnclaimed (machine fun _ => [] : Machine (Joint Bool) (Event Bool)).init
        overlappingRun :=
  handed_once_iff (by decide +kernel)

end Services.DoubleTrigger
