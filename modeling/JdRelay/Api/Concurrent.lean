import JdRelay.Base.Runs
import JdRelay.Api.Redelivery

namespace Api.Concurrent
open Text Json State State.WorkOrderState Models Runs Api.Redelivery

variable {H : Type}

inductive Phase where
  | start
  | ordered (snapshot : Content) (order : WorkOrder)
  | pended (order : WorkOrder) (approval : Option Approval)
  | checked (order : WorkOrder) (approval : Option Approval) (plan : Plan)
  | done

-- closed records that some handler has committed CLOSED for the order in question.
structure System (H : Type) where
  db : Content
  phase : H → Phase
  closed : Bool

-- The second SELECT sees the handler's first snapshot or, at a weaker isolation, the rows of the moment.
inductive Event (H : Type) where
  | readOrder (h : H)
  | readPending (h : H) (current : Bool)
  | check (h : H) (now : Int)
  | commit (h : H)

structure Setting (H : Type) where
  sql : Sql
  db : Content
  orderId : Nat
  callback : H → Callback

def System.goto [DecidableEq H] (s : System H) (h : H) (p : Phase) : System H := { s with phase := Function.update s.phase h p }

def afterOrder (snapshot : Content) : Except Exn (Option WorkOrder) → Phase
  | .ok (some order) => .ordered snapshot order
  | _ => .done

def afterPending (order : WorkOrder) : Except Exn (Option Approval) → Phase
  | .ok approval => .pended order approval
  | .error _ => .done

def afterCheck (order : WorkOrder) (approval : Option Approval) : Except Exn Plan → Phase
  | .ok plan => .checked order approval plan
  | .error _ => .done

def closes (orderId : Nat) (plan : Plan) : Bool := plan.orderId = orderId && plan.newState = .closed

def System.store [DecidableEq H] (orderId : Nat) (s : System H) (h : H) (plan : Plan) : System H where
  db := Api.commit s.db plan
  phase := Function.update s.phase h .done
  closed := s.closed || closes orderId plan

variable (g : Setting H)

def step [DecidableEq H] (s : System H) : Event H → Option (System H)
  | .readOrder h =>
      match s.phase h with
      | .start => some (s.goto h (afterOrder s.db (Api.readOrder g.sql s.db (g.callback h).bizId)))
      | _ => none
  | .readPending h current =>
      match s.phase h with
      | .ordered snapshot order =>
          some (s.goto h (afterPending order (Api.readPending (if current then s.db else snapshot) order.id)))
      | _ => none
  | .check h now =>
      match s.phase h with
      | .pended order approval => some (s.goto h (afterCheck order approval (drive order approval (g.callback h).result now)))
      | _ => none
  | .commit h =>
      match s.phase h with
      | .checked _ _ plan => some (s.store g.orderId h plan)
      | _ => none

def machine [DecidableEq H] : Machine (System H) (Event H) where
  init := { db := g.db, phase := fun _ => .start, closed := false }
  step := step g

def ClosedStays (s : System H) : Prop :=
  s.closed = true → ∀ o ∈ s.db.orders, o.id = g.orderId → o.state = closed.value

def LateCommitsRefuse (s : System H) : Event H → Prop
  | .commit h => match s.phase h with
      | .checked order approval _ => s.closed = true → order.id = g.orderId →
          agrees (g.callback h).result = false ∧ reviewType approval ≠ secondText
      | _ => True
  | _ => True

def Phase.Sound (ids : List Nat) (result : Value) : Phase → Prop
  | .ordered snapshot order => snapshot.orders.map (·.id) = ids ∧ order.id ∈ ids
  | .pended order _ => order.id ∈ ids
  | .checked order approval plan => order.id ∈ ids ∧ ∃ now, plan = planFor order approval result now
  | _ => True

structure Inv (s : System H) : Prop where
  ids : s.db.orders.map (·.id) = g.db.orders.map (·.id)
  sound : ∀ h, (s.phase h).Sound (g.db.orders.map (·.id)) (g.callback h).result

theorem target_eq_closed {result : Value} {approval : Option Approval} :
    target result approval = .closed ↔ agrees result = false ∧ reviewType approval ≠ secondText := by
  unfold target
  cases agrees result <;> by_cases h : reviewType approval = secondText <;> simp [h]

theorem ids_commit (c : Content) (plan : Plan) : (commit c plan).orders.map (·.id) = c.orders.map (·.id) := by
  unfold commit
  cases plan.approval <;> simp [Function.comp_def]

variable {g}

theorem sound_afterOrder {s : System H} {bizId result : Value} (hs : Inv g s) :
    (afterOrder s.db (readOrder g.sql s.db bizId)).Sound (g.db.orders.map (·.id)) result := by
  cases hread : readOrder g.sql s.db bizId with
  | error e => trivial
  | ok found =>
      cases found with
      | none => trivial
      | some order => exact ⟨hs.ids, hs.ids ▸ List.mem_map_of_mem (mem_of_readOrder hread)⟩

theorem stays_of_same {s t : System H} (hdb : t.db = s.db) (hclosed : t.closed = s.closed) (hs : ClosedStays g s) :
    ClosedStays g t := by
  intro hc
  rw [hdb]
  exact hs (hclosed ▸ hc)

variable [DecidableEq H]

theorem inv_init : Inv g (machine g).init := ⟨rfl, fun _ => trivial⟩

theorem inv_goto {s : System H} {h : H} {p : Phase} (hs : Inv g s)
    (hp : p.Sound (g.db.orders.map (·.id)) (g.callback h).result) : Inv g (s.goto h p) := by
  refine ⟨hs.ids, fun h' => ?_⟩
  by_cases heq : h' = h
  · subst heq
    simpa only [System.goto, Function.update_self] using hp
  · simpa only [System.goto, Function.update_of_ne heq] using hs.sound h'

theorem inv_step {s t : System H} {e : Event H} (hs : Inv g s) (h : step g s e = some t) : Inv g t := by
  cases e with
  | readOrder i =>
      simp only [step] at h
      split at h
      · cases h
        exact inv_goto hs (sound_afterOrder hs)
      · cases h
  | readPending i current =>
      simp only [step] at h
      split at h
      · rename_i snapshot order hphase
        cases h
        have hsound := hs.sound i
        rw [hphase] at hsound
        refine inv_goto hs ?_
        cases readPending (if current = true then s.db else snapshot) order.id with
        | error e => trivial
        | ok approval => exact hsound.2
      · cases h
  | check i now =>
      simp only [step] at h
      split at h
      · rename_i order approval hphase
        cases h
        have hsound := hs.sound i
        rw [hphase] at hsound
        refine inv_goto hs ?_
        cases hdrive : drive order approval (g.callback i).result now with
        | error e => trivial
        | ok plan =>
            obtain ⟨-, -, -, hplan⟩ := drive_ok.mp hdrive
            exact ⟨hsound, now, hplan⟩
      · cases h
  | commit i =>
      simp only [step] at h
      split at h
      · rename_i order approval plan hphase
        cases h
        refine ⟨(ids_commit s.db plan).trans hs.ids, fun h' => ?_⟩
        by_cases heq : h' = i
        · subst heq
          simp only [System.store, Function.update_self]
          trivial
        · simpa only [System.store, Function.update_of_ne heq] using hs.sound h'
      · cases h

theorem mem_commit {c : Content} {plan : Plan} {o : WorkOrder} :
    o ∈ (commit c plan).orders ↔ ∃ o' ∈ c.orders, o'.setState plan.orderId plan.newState.value = o := by
  have horders : (commit c plan).orders = c.orders.map (WorkOrder.setState plan.orderId plan.newState.value) := by
    unfold commit
    cases plan.approval <;> rfl
  rw [horders, List.mem_map]

theorem stays_store {s : System H} {i : H} {order : WorkOrder} {approval : Option Approval} {plan : Plan}
    (hs : Inv g s) (hstays : ClosedStays g s) (hphase : s.phase i = .checked order approval plan) :
    ClosedStays g (s.store g.orderId i plan) ↔ LateCommitsRefuse g s (.commit i) := by
  have hsound := hs.sound i
  rw [hphase] at hsound
  obtain ⟨hmem, now, hplan⟩ := hsound
  have hplanId : plan.orderId = order.id := congrArg Plan.orderId hplan
  have hplanState : plan.newState = target (g.callback i).result approval := congrArg Plan.newState hplan
  simp only [LateCommitsRefuse, hphase, ← target_eq_closed, ← hplanState]
  constructor
  · intro h hclosed hid
    rw [← hs.ids, List.mem_map] at hmem
    obtain ⟨o, ho, hoid⟩ := hmem
    have hstate := h (by simp [System.store, hclosed]) _ (mem_commit.mpr ⟨o, ho, rfl⟩)
      (by rw [WorkOrder.setState_id, hoid, hid])
    rw [WorkOrder.setState_of_eq (hoid.trans hplanId.symm)] at hstate
    exact value_injective hstate
  · intro h hclosed o ho hid
    obtain ⟨o', ho', rfl⟩ := mem_commit.mp ho
    rw [WorkOrder.setState_id] at hid
    simp only [System.store, closes, Bool.or_eq_true, Bool.and_eq_true, decide_eq_true_eq] at hclosed
    by_cases hsame : o'.id = plan.orderId
    · rw [WorkOrder.setState_of_eq hsame]
      rcases hclosed with hclosed | ⟨-, hnew⟩
      · exact congrArg value (h hclosed (hplanId.symm.trans (hsame.symm.trans hid)))
      · exact congrArg value hnew
    · rw [WorkOrder.setState_of_ne hsame]
      rcases hclosed with hclosed | ⟨hother, -⟩
      · exact hstays hclosed o' ho' hid
      · exact absurd (hid.trans hother.symm) hsame

theorem stays_step {s t : System H} {e : Event H} (hs : Inv g s) (hstays : ClosedStays g s) (h : step g s e = some t) :
    ClosedStays g t ↔ LateCommitsRefuse g s e := by
  cases e with
  | readOrder i =>
      simp only [step] at h
      split at h
      · cases h
        exact iff_of_true (stays_of_same rfl rfl hstays) trivial
      · cases h
  | readPending i current =>
      simp only [step] at h
      split at h
      · cases h
        exact iff_of_true (stays_of_same rfl rfl hstays) trivial
      · cases h
  | check i now =>
      simp only [step] at h
      split at h
      · cases h
        exact iff_of_true (stays_of_same rfl rfl hstays) trivial
      · cases h
  | commit i =>
      simp only [step] at h
      split at h
      · rename_i hphase
        cases h
        exact stays_store hs hstays hphase
      · cases h

theorem closed_final_iff (g : Setting H) {es : List (Event H)} (hrun : (machine g).IsRun es) :
    (machine g).Always (ClosedStays g) (machine g).init es ↔
      (machine g).Guarded (LateCommitsRefuse g) (machine g).init es :=
  Machine.always_iff_guarded _ inv_step stays_step inv_init (fun h => by cases h) hrun

theorem solo_run {s : System H} {i : H} {now : Int} {c : Content} (hstart : s.phase i = .start)
    (h : finish g.sql now s.db (g.callback i) = .committed c) :
    ∃ t, (machine g).exec s [.readOrder i, .readPending i true, .check i now, .commit i] = some t ∧ t.db = c := by
  obtain ⟨order, approval, current, hon, rfl⟩ := committed_iff.mp h
  have hdrive : drive order approval (g.callback i).result now = .ok (planFor order approval (g.callback i).result now) :=
    drive_ok.mpr ⟨current, hon.state, hon.allowed, rfl⟩
  simp [Machine.exec, machine, step, hstart, System.goto, afterOrder, hon.found, afterPending, hon.pending, afterCheck,
    hdrive, System.store]

def race : Setting Bool where
  sql := exactSql
  db := firstRound
  orderId := 1
  callback refuses := { agreed with result := .str (if refuses then str "refuse" else str "agree") }

def raceRun : List (Event Bool) :=
  [.readOrder true, .readOrder false, .readPending true true, .readPending false true, .check true 5, .check false 6,
    .commit true, .commit false]

-- Both callbacks read PENDING_APPROVAL; the refusal commits first and the agree overwrites it.
theorem race_reopens :
    ((machine race).exec (machine race).init raceRun).map (fun s => (s.closed, s.db.orders.map (·.state))) =
        some (true, [approved.value]) ∧
      ¬ (machine race).Always (ClosedStays race) (machine race).init raceRun := by
  refine ⟨by decide, fun h => ?_⟩
  have hguard := h.2 _ rfl |>.2 _ rfl |>.2 _ rfl |>.2 _ rfl |>.2 _ rfl |>.2 _ rfl |>.2 _ rfl |>.2 _ rfl
  exact absurd (hguard rfl _ List.mem_cons_self rfl) (by decide)

theorem closed_final_iff_race :
    (machine race).Always (ClosedStays race) (machine race).init raceRun ↔
      (machine race).Guarded (LateCommitsRefuse race) (machine race).init raceRun :=
  closed_final_iff race (by decide)

end Api.Concurrent
