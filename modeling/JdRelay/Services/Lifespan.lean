import JdRelay.Base.Runs
import JdRelay.Services.Lifecycle

namespace Services.Lifespan
open Text Json State State.WorkOrderState Lifecycle

section Graph

def Allowed (a b : WorkOrderState) : Prop := canTransition a b = true

instance (a b : WorkOrderState) : Decidable (Allowed a b) := inferInstanceAs (Decidable (_ = true))

theorem mem_members (st : WorkOrderState) : st ∈ members := by cases st <;> decide

-- BUILDING and FAILED are on one level: a retry goes back and forth between them.
def phase : WorkOrderState → Nat
  | draft => 0
  | pendingApproval => 1
  | approved => 2
  | pendingSecondReview => 3
  | secondApproved => 4
  | secondRejected => 4
  | building => 5
  | failed => 5
  | success => 6
  | closed => 7

def one (st a : WorkOrderState) : Nat := if a = st then 1 else 0

def left : WorkOrderState → Nat
  | draft => 7
  | pendingApproval => 6
  | approved => 5
  | pendingSecondReview => 4
  | secondApproved => 3
  | secondRejected => 1
  | building => 2
  | failed => 3
  | success => 1
  | closed => 0

def buildsLeft (a : WorkOrderState) : Nat := if phase a < 5 ∨ a = failed then 1 else 0

theorem sum_one (st : WorkOrderState) (l : List WorkOrderState) : (l.map (one st)).sum = l.count st := by
  induction l with
  | nil => rfl
  | cons a l ih =>
      rw [List.map_cons, List.sum_cons, ih, List.count_cons, Nat.add_comm]
      simp [one]

variable {a : WorkOrderState} {l : List WorkOrderState}

theorem once_of_chain (h : List.IsChain Allowed (a :: l)) {st : WorkOrderState} (hbuilding : st ≠ building)
    (hfailed : st ≠ failed) : l.count st ≤ 1 := by
  have hall : ∀ st ∈ members, st ≠ building → st ≠ failed → ∀ a ∈ members, ∀ b ∈ members, Allowed a b →
      one st b + (if phase b < phase st then 1 else 0) ≤ 0 + if phase a < phase st then 1 else 0 := by decide +kernel
  have hsum := Runs.sum_le_of_chain (fun a b => hall st (mem_members st) hbuilding hfailed a (mem_members a) b (mem_members b)) h
  rw [sum_one, List.map_const', List.sum_replicate, smul_zero] at hsum
  split at hsum <;> omega

theorem builds_of_chain (h : List.IsChain Allowed (a :: l)) : l.count building ≤ l.count failed + buildsLeft a := by
  have hall : ∀ a ∈ members, ∀ b ∈ members, Allowed a b → one building b + buildsLeft b ≤ one failed b + buildsLeft a := by
    decide
  have hsum := Runs.sum_le_of_chain (fun a b => hall a (mem_members a) b (mem_members b)) h
  rwa [sum_one, sum_one] at hsum

theorem failures_of_chain (h : List.IsChain Allowed (a :: l)) : l.count failed ≤ l.count building + one building a := by
  have hall : ∀ a ∈ members, ∀ b ∈ members, Allowed a b → one failed b + one building b ≤ one building b + one building a := by
    decide
  have hsum := Runs.sum_le_of_chain (fun a b => hall a (mem_members a) b (mem_members b)) h
  rwa [sum_one, sum_one] at hsum

theorem length_of_chain (h : List.IsChain Allowed (a :: l)) : l.length ≤ 2 * l.count failed + left a := by
  have hall : ∀ a ∈ members, ∀ b ∈ members, Allowed a b → 1 + left b ≤ 2 * one failed b + left a := by decide
  have hsum := Runs.sum_le_of_chain (fun a b => hall a (mem_members a) b (mem_members b)) h
  rwa [List.map_const', List.sum_replicate, smul_eq_mul, Nat.mul_one, List.sum_map_mul_left, sum_one] at hsum

end Graph

section Run

variable (reprOf : Value → Str)

def trail : History → List Request → List WorkOrderState
  | _, [] => []
  | s, r :: rs =>
      let t := step reprOf s r
      if t.stored = s.stored then trail t rs else t.stored :: trail t rs

variable {reprOf} {s t : History}

theorem allowed_change (h : Change s t) : t.stored = s.stored ∨ Allowed s.stored t.stored := by
  cases h with
  | none => exact .inl rfl
  | move hcan _ => exact .inr hcan
  | approval agree hcan => exact .inr hcan
  | sent hcan hstored =>
      rcases hstored with rfl | rfl
      · exact .inr hcan
      · exact .inl rfl
  | reviewOpened hcan => exact .inr hcan
  | secondReview agree hcan => exact .inr hcan

theorem trail_chain (rs : List Request) (s : History) : List.IsChain Allowed (s.stored :: trail reprOf s rs) := by
  induction rs generalizing s with
  | nil => exact List.isChain_singleton _
  | cons r rs ih =>
      rw [trail]
      split
      · rename_i hsame
        rw [← hsame]
        exact ih _
      · rename_i hmoved
        exact List.isChain_cons_cons.mpr ⟨(allowed_change (step_change reprOf s r)).resolve_left hmoved, ih _⟩

theorem trail_last (rs : List Request) (s : History) :
    (trail reprOf s rs).getLastD s.stored = (rs.foldl (step reprOf) s).stored := by
  induction rs generalizing s with
  | nil => rfl
  | cons r rs ih =>
      rw [trail, List.foldl_cons, ← ih]
      split
      · rename_i hsame
        rw [hsame]
      · exact List.getLastD_cons ..

def closing : WorkOrderState → List Call
  | building => [.onBuildResult (.str (str "FAILED")), .closeWorkOrder]
  | pendingSecondReview => [.onSecondReviewResult (.str (str "refuse")), .closeWorkOrder]
  | closed => []
  | _ => [.closeWorkOrder]

theorem closing_closes (s : History) : (((closing s.stored).map plainRequest).foldl (step reprOf) s).stored = closed := by
  obtain ⟨stored, log⟩ := s
  cases stored <;> rfl

structure Course (entered : List WorkOrderState) : Prop where
  allowed : List.IsChain Allowed (draft :: entered)
  once : ∀ st, st ≠ building → st ≠ failed → entered.count st ≤ 1
  builds : entered.count building ≤ entered.count failed + 1
  failures : entered.count failed ≤ entered.count building
  bounded : entered.length ≤ 2 * entered.count failed + 7

theorem order_lifespan (reprOf : Value → Str) (rs : List Request) : Course (trail reprOf ⟨draft, []⟩ rs) ∧
    (trail reprOf ⟨draft, []⟩ rs).getLastD draft = (run reprOf rs).stored ∧
    ∃ calls, calls.length ≤ 2 ∧ (run reprOf (rs ++ calls)).stored = closed := by
  have hchain : List.IsChain Allowed (draft :: trail reprOf ⟨draft, []⟩ rs) := trail_chain rs ⟨draft, []⟩
  refine ⟨⟨hchain, fun st => once_of_chain hchain, builds_of_chain hchain, failures_of_chain hchain, length_of_chain hchain⟩,
    trail_last rs _, (closing (run reprOf rs).stored).map plainRequest, ?_, ?_⟩
  · rw [List.length_map]
    cases (run reprOf rs).stored <;> decide
  · rw [run, List.foldl_append]
    exact closing_closes _

end Run

end Services.Lifespan
