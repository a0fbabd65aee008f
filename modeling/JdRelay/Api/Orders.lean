import JdRelay.Base.Query
import JdRelay.Models

namespace Api.Orders
open Text Query

variable {D : Type}

structure WorkOrder (D : Type) extends Models.WorkOrder where
  issue : Str
  project : Str
  branch : Str
  createdAt : D
  createdBy : Str

structure WorkOrderSummary where
  id : Nat
  orderNo : Str
  issue : Str
  project : Str
  branch : Str
  state : Str
  createdAt : Str
  createdBy : Str
  deriving DecidableEq

structure Table (D : Type) where
  rows : List (WorkOrder D)
  ids : (rows.map (·.id)).Nodup

-- Query(50, ge=1, le=200)
abbrev Limit := { n : Nat // 1 ≤ n ∧ n ≤ 200 }

structure Stmt where
  state : Option Str
  project : Option Str
  limit : Nat
  offset : Nat

def given (x : Option Str) : Option Str := x.filter fun s => s ≠ []

section Select

-- equal is the collation of the database.
variable (equal : Str → Str → Bool)

def selects (state project : Option Str) (o : WorkOrder D) : Bool :=
  state.all (fun s => equal o.state s) && project.all (fun s => equal o.project s)

def Executes [LinearOrder D] (t : Table D) (stmt : Stmt) (result : List (WorkOrder D)) : Prop :=
  ∃ answer, Answers (·.createdAt) (t.rows.filter (selects equal stmt.state stmt.project)) answer ∧
    result = page stmt.limit stmt.offset answer

end Select

section Route

-- upper is str.upper, isoformat is datetime.isoformat.
variable (upper : Str → Str) (isoformat : D → Str)

def orderToSummary (o : WorkOrder D) : WorkOrderSummary :=
  ⟨o.id, o.orderNo, o.issue, o.project, o.branch, o.state, isoformat o.createdAt, o.createdBy⟩

def stmtOf (state project : Option Str) (limit : Limit) (offset : Nat) : Stmt :=
  ⟨(given state).map upper, given project, limit, offset⟩

def listOrders (execute : Stmt → List (WorkOrder D)) (state project : Option Str) (limit : Limit) (offset : Nat) :
    List WorkOrderSummary :=
  (execute (stmtOf upper state project limit offset)).map (orderToSummary isoformat)

end Route

section Paging

variable (equal : Str → Str → Bool) (upper : Str → Str) (isoformat : D → Str) (t : Table D)
  (state project : Option Str)

def matching : List (WorkOrder D) := t.rows.filter (selects equal ((given state).map upper) (given project))

theorem summaries_nodup : ((matching equal upper t state project).map (orderToSummary isoformat)).Nodup := by
  refine List.Nodup.of_map WorkOrderSummary.id ?_
  rw [List.map_map]
  exact t.ids.sublist (List.filter_sublist.map _)

theorem listOrders_pages {limit : Limit} {execute : Nat → Stmt → List (WorkOrder D)} {answers : Nat → List (WorkOrder D)}
    (h : ∀ k, execute k (stmtOf upper state project limit (k * limit)) = page limit (k * limit) (answers k)) (m : Nat) :
    ((List.range m).flatMap fun k => listOrders upper isoformat (execute k) state project limit (k * limit)) =
      (pages limit m answers).map (orderToSummary isoformat) := by
  simp only [pages, List.map_flatMap, listOrders, h]

variable [LinearOrder D]

def PagesOnce (limit : Limit) : Prop :=
  ∀ execute : Nat → Stmt → List (WorkOrder D), (∀ k stmt, Executes equal t stmt (execute k stmt)) →
    ∀ m, (matching equal upper t state project).length ≤ m * limit →
      ((List.range m).flatMap fun k => listOrders upper isoformat (execute k) state project limit (k * limit)).Perm
        ((matching equal upper t state project).map (orderToSummary isoformat))

def NoTie (limit : Limit) : Prop :=
  ∀ k, 0 < k * limit.val → ¬ Tied (·.createdAt) (matching equal upper t state project) (k * limit)

theorem exists_execute (limit : Limit) {answers : Nat → List (WorkOrder D)}
    (hanswers : ∀ k, Answers (·.createdAt) (matching equal upper t state project) (answers k)) :
    ∃ execute : Nat → Stmt → List (WorkOrder D), (∀ k stmt, Executes equal t stmt (execute k stmt)) ∧
      ∀ k, execute k (stmtOf upper state project limit (k * limit)) = page limit (k * limit) (answers k) := by
  have hanswer : ∀ k (stmt : Stmt), ∃ answer, Answers (·.createdAt)
      (t.rows.filter (selects equal stmt.state stmt.project)) answer ∧
        (stmt.state = (given state).map upper ∧ stmt.project = given project → answer = answers k) := by
    intro k stmt
    by_cases hstmt : stmt.state = (given state).map upper ∧ stmt.project = given project
    · refine ⟨answers k, ?_, fun _ => rfl⟩
      rw [hstmt.1, hstmt.2]
      exact hanswers k
    · obtain ⟨answer, h⟩ := exists_answers (·.createdAt) (t.rows.filter (selects equal stmt.state stmt.project))
      exact ⟨answer, h, fun hand => absurd hand hstmt⟩
  choose answer hanswer using hanswer
  exact ⟨fun k stmt => page stmt.limit stmt.offset (answer k stmt), fun k stmt => ⟨_, (hanswer k stmt).1, rfl⟩,
    fun k => congrArg (page limit (k * limit)) ((hanswer k _).2 ⟨rfl, rfl⟩)⟩

theorem pages_once_iff (limit : Limit) :
    PagesOnce equal upper isoformat t state project limit ↔ NoTie equal upper t state project limit := by
  constructor
  · intro h k hpos htied
    obtain ⟨answers, hanswers, hrepeat⟩ := exists_repeat hpos htied
    obtain ⟨execute, hexecute, hpage⟩ := exists_execute equal upper t state project limit hanswers
    have hm : (matching equal upper t state project).length ≤ (matching equal upper t state project).length * limit :=
      Nat.le_mul_of_pos_right _ limit.2.1
    have hperm := h execute hexecute _ hm
    rw [listOrders_pages upper isoformat state project hpage] at hperm
    exact hrepeat _ hm (List.Nodup.of_map _ (hperm.nodup_iff.mpr (summaries_nodup equal upper isoformat t state project)))
  · intro hfree execute hexecute m hm
    choose answers hanswers hpage using fun k => hexecute k (stmtOf upper state project limit (k * limit))
    rw [listOrders_pages upper isoformat state project hpage]
    exact (pages_perm_rows hanswers hfree hm).map _

end Paging

def order (id : Nat) : WorkOrder Nat where
  id := id
  orderNo := []
  state := str "DRAFT"
  issue := []
  project := []
  branch := []
  createdAt := 0
  createdBy := []

def sameSecond : Table Nat := ⟨[order 1, order 2], by decide⟩

def execute (k : Nat) (stmt : Stmt) : List (WorkOrder Nat) :=
  page stmt.limit stmt.offset
    ((fun rows => if k = 1 then rows.reverse else rows)
      (sameSecond.rows.filter (selects (fun a b => a == b) stmt.state stmt.project)))

theorem execute_executes (k : Nat) (stmt : Stmt) : Executes (fun a b => a == b) sameSecond stmt (execute k stmt) := by
  have hequal : ∀ o ∈ sameSecond.rows, o.createdAt = 0 := by
    intro o ho
    rcases List.mem_pair.mp ho with rfl | rfl <;> rfl
  have hsorted : ∀ rows : List (WorkOrder Nat), (∀ o ∈ rows, o ∈ sameSecond.rows) →
      rows.Pairwise fun a b => b.createdAt ≤ a.createdAt := fun rows hrows =>
    List.pairwise_of_forall_mem_list fun a ha b hb => by rw [hequal a (hrows a ha), hequal b (hrows b hb)]
  refine ⟨_, ⟨?_, hsorted _ fun o ho => ?_⟩, rfl⟩
  · dsimp only
    split_ifs
    · exact List.reverse_perm _
    · rfl
  · dsimp only at ho
    split_ifs at ho
    · exact List.mem_of_mem_filter (List.mem_reverse.mp ho)
    · exact List.mem_of_mem_filter ho

theorem tied_pages_repeat :
    ¬ PagesOnce (fun a b => a == b) id (fun _ => []) sameSecond none none ⟨1, by decide⟩ := by
  intro h
  have hperm := h execute execute_executes 2 (by decide)
  revert hperm
  decide

end Api.Orders
