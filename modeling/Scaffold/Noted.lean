import Scaffold.Fault

/-! Computations that leave notes for the log. What was noted stays noted when the computation
fails later on. -/

namespace Scaffold

inductive Action where
  | created
  | updated
  deriving DecidableEq, Repr

inductive Note where
  | projectStub (path : Path)
  | composingCollection (name : Text)
  | composingQueryBuilder (name : Text)
  | withheld (path : Path)
  | written (action : Action) (path : Path)
  deriving DecidableEq, Repr

structure Noted (α : Type) where
  notes : List Note
  outcome : Except Fault α

theorem bind_eq_ok {α β : Type} {x : Except Fault α} {f : α → Except Fault β} {b : β} :
    x >>= f = .ok b ↔ ∃ a, x = .ok a ∧ f a = .ok b := by
  cases x with
  | error fault => simp [bind, Except.bind]
  | ok a => simp [bind, Except.bind]

namespace Noted

def note (n : Note) : Noted Unit := ⟨[n], .ok ()⟩

def raise {α : Type} (fault : Fault) : Noted α := ⟨[], .error fault⟩

def andThen {α β : Type} (x : Noted α) (f : α → Noted β) : Noted β :=
  match x.outcome with
  | .ok a => ⟨x.notes ++ (f a).notes, (f a).outcome⟩
  | .error fault => ⟨x.notes, .error fault⟩

instance : Monad Noted where
  pure a := ⟨[], .ok a⟩
  bind := andThen

instance : MonadLift (Except Fault) Noted where
  monadLift x := ⟨[], x⟩

@[simp] theorem outcome_pure {α : Type} (a : α) : (pure a : Noted α).outcome = .ok a := rfl

@[simp] theorem outcome_note (n : Note) : (note n).outcome = .ok () := rfl

@[simp] theorem outcome_raise {α : Type} (fault : Fault) :
    (raise fault : Noted α).outcome = .error fault := rfl

@[simp] theorem outcome_lift {α : Type} (x : Except Fault α) :
    (monadLift x : Noted α).outcome = x := rfl

@[simp] theorem outcome_bind {α β : Type} (x : Noted α) (f : α → Noted β) :
    (x >>= f).outcome = x.outcome >>= fun a => (f a).outcome := by
  show (andThen x f).outcome = _
  unfold andThen
  cases x.outcome <;> rfl

end Noted
end Scaffold
