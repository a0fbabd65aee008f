import Mathlib.Tactic

namespace Transaction

-- What a connection sees: the committed store, and the changes that no commit has written.
structure Session (C D : Type) where
  stored : C
  changes : List D

abbrev Db (C D E : Type) := ExceptT E (StateM (Session C D))

-- A commit can also raise after the server has stored the transaction.
inductive Commit where
  | acknowledged
  | refused
  | unacknowledged
  deriving DecidableEq

variable {C D E A B : Type}

namespace Session

def opened (c : C) : Session C D := ⟨c, []⟩

def clean (s : Session C D) : Session C D := ⟨s.stored, []⟩

def flushed (write : C → D → C) (s : Session C D) : Session C D := ⟨s.changes.foldl write s.stored, []⟩

def add (s : Session C D) (ds : List D) : Session C D := ⟨s.stored, s.changes ++ ds⟩

@[simp] theorem opened_stored (c : C) : (opened c : Session C D).stored = c := rfl

@[simp] theorem clean_stored (s : Session C D) : s.clean.stored = s.stored := rfl

end Session

def Commit.writes (x : Commit) : Bool := x ≠ .refused

def raising (x : Except E A) : Db C D E A := ExceptT.mk (pure x)

def change (ds : List D) : Db C D E Unit := modify (·.add ds)

def commit (write : C → D → C) (exn : E) : Commit → Db C D E Unit
  | .acknowledged => modify (·.flushed write)
  | .refused => throw exn
  | .unacknowledged => do
      modify (·.flushed write)
      throw exn

def rollback (x : Except E Unit) : Db C D E Unit := do
  raising x
  modify Session.clean

-- A request's session: an exception rolls back and goes on, and the session is closed either way.
def within (undo : Except E Unit) (body : Db C D E A) : Db C D E A := fun s =>
  let ended := tryCatch body (fun e => do rollback undo; throw e) s
  (ended.1, ended.2.clean)

def follow (k : A → Db C D E B) : Except E A × Session C D → Except E B × Session C D
  | (.ok a, s) => k a s
  | (.error e, s) => (.error e, s)

def recover (handler : E → Db C D E A) : Except E A × Session C D → Except E A × Session C D
  | (.ok a, s) => (.ok a, s)
  | (.error e, s) => handler e s

@[simp] theorem follow_ok (k : A → Db C D E B) (a : A) (s : Session C D) : follow k (.ok a, s) = k a s := rfl

@[simp] theorem follow_error (k : A → Db C D E B) (e : E) (s : Session C D) : follow k (.error e, s) = (.error e, s) := rfl

@[simp] theorem recover_error (handler : E → Db C D E A) (e : E) (s : Session C D) :
    recover handler (.error e, s) = handler e s := rfl

@[simp] theorem run_raising (x : Except E A) (s : Session C D) : raising x s = (x, s) := rfl

@[simp] theorem run_pure (a : A) (s : Session C D) : (pure a : Db C D E A) s = (.ok a, s) := rfl

@[simp] theorem run_change (ds : List D) (s : Session C D) : (change ds : Db C D E Unit) s = (.ok (), s.add ds) := rfl

@[simp] theorem run_bind (m : Db C D E A) (k : A → Db C D E B) (s : Session C D) : (m >>= k) s = follow k (m s) := by
  change (ExceptT.bind m k) s = _
  simp only [ExceptT.bind, ExceptT.mk, bind, StateT.bind]
  rcases m s with ⟨_ | _, t⟩ <;> rfl

@[simp] theorem run_tryCatch (m : Db C D E A) (handler : E → Db C D E A) (s : Session C D) :
    (tryCatch m handler) s = recover handler (m s) := by
  change (ExceptT.tryCatch m handler) s = _
  simp only [ExceptT.tryCatch, ExceptT.mk, bind, StateT.bind]
  rcases m s with ⟨_ | _, t⟩ <;> rfl

theorem rollback_stored (x : Except E Unit) (s : Session C D) : (rollback x s).2.stored = s.stored := by
  cases x <;> rfl

theorem within_stored (undo : Except E Unit) (body : Db C D E A) (s : Session C D) :
    (within undo body s).2.stored = (body s).2.stored := by
  simp only [within, run_tryCatch, Session.clean_stored]
  rcases body s with ⟨e | a, t⟩
  · cases undo <;> rfl
  · rfl

end Transaction
