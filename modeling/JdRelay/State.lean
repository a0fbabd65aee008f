import JdRelay.Base.Python

namespace State
open Text Json

inductive WorkOrderState where
  | draft
  | pendingApproval
  | approved
  | building
  | success
  | failed
  | closed
  | pendingSecondReview
  | secondApproved
  | secondRejected
  deriving DecidableEq

-- What a handler of the forwarder can raise; external stands for a service outside the repository.
inductive Exn where
  | builtin (e : Python.Error)
  | stateError (text : Str)
  | relayError (text : Str)
  | multipleResultsFound
  | httpException (status : Nat) (detail : Str)
  | external
  deriving DecidableEq

namespace WorkOrderState

def value : WorkOrderState → Str
  | draft => str "DRAFT"
  | pendingApproval => str "PENDING_APPROVAL"
  | approved => str "APPROVED"
  | building => str "BUILDING"
  | success => str "SUCCESS"
  | failed => str "FAILED"
  | closed => str "CLOSED"
  | pendingSecondReview => str "PENDING_SECOND_REVIEW"
  | secondApproved => str "SECOND_APPROVED"
  | secondRejected => str "SECOND_REJECTED"

def members : List WorkOrderState :=
  [draft, pendingApproval, approved, building, success, failed, closed, pendingSecondReview, secondApproved,
    secondRejected]

def ofStr (s : Str) : Except Exn WorkOrderState :=
  match members.find? (·.value = s) with
  | some st => .ok st
  | none => .error (.builtin .valueError)

def ofValue : Value → Except Exn WorkOrderState
  | .str s => ofStr s
  | _ => .error (.builtin .valueError)

@[simp] theorem ofStr_value (st : WorkOrderState) : ofStr st.value = .ok st := by cases st <;> rfl

theorem ofStr_ok {s : Str} {st : WorkOrderState} (h : ofStr s = .ok st) : s = st.value := by
  unfold ofStr at h
  split at h
  · rename_i found hfind
    cases h
    have hvalue := List.find?_some hfind
    exact (of_decide_eq_true hvalue).symm
  · cases h

theorem value_injective {a b : WorkOrderState} (h : a.value = b.value) : a = b := by
  have hb := ofStr_value b
  rw [← h, ofStr_value] at hb
  exact Except.ok.inj hb

def transitions : WorkOrderState → List WorkOrderState
  | draft => [pendingApproval, closed]
  | pendingApproval => [approved, closed]
  | approved => [building, pendingSecondReview, closed]
  | building => [success, failed]
  | success => [closed]
  | failed => [building, closed]
  | closed => []
  | pendingSecondReview => [secondApproved, secondRejected]
  | secondApproved => [building, closed]
  | secondRejected => [closed]

end WorkOrderState

def canTransition (current target : WorkOrderState) : Bool := decide (target ∈ current.transitions)

def transition (current target : WorkOrderState) : Except Exn WorkOrderState :=
  if canTransition current target then .ok target
  else .error (.stateError (str "Invalid transition: " ++ current.value ++ str " → " ++ target.value))

theorem transition_ok {current target new : WorkOrderState} (h : transition current target = .ok new) :
    canTransition current target = true ∧ new = target := by
  unfold transition at h
  split at h
  · exact ⟨‹_›, (Except.ok.inj h).symm⟩
  · cases h

theorem transition_of_can {current target : WorkOrderState} (h : canTransition current target = true) :
    transition current target = .ok target := by rw [transition, if_pos h]

inductive Moves : WorkOrderState → WorkOrderState → Prop where
  | stay (a : WorkOrderState) : Moves a a
  | next {a b c : WorkOrderState} : Moves a b → canTransition b c = true → Moves a c

end State
