/-!
# Milestones

An operation passes two milestones: it is complete when every replica holds its effect in memory,
and safe when every replica has written it down. Neither waits for the other.

* `PerMilestone.get_set`: what is stored for one milestone is read for that one alone.
-/

namespace Milepost

/-- The two points an operation passes after it was issued. -/
inductive Milestone
  | complete
  | safe
deriving DecidableEq, Repr

namespace Milestone

/-- Both milestones, in the order in which waiting for them is started. -/
def all : List Milestone := [complete, safe]

/-- The name in labels and thread names. -/
def label : Milestone → String
  | complete => "complete"
  | safe => "safe"

/-- The name of the constructor. -/
def name : Milestone → String
  | complete => "Complete"
  | safe => "Safe"

end Milestone

/-- The order in which a backend fires the two milestones of one operation. -/
inductive MilestoneOrder
  | completeFirst
  | safeFirst
deriving DecidableEq, Repr

namespace MilestoneOrder

/-- The milestone fired first. -/
def first : MilestoneOrder → Milestone
  | completeFirst => .complete
  | safeFirst => .safe

/-- The milestone fired second. -/
def second : MilestoneOrder → Milestone
  | completeFirst => .safe
  | safeFirst => .complete

end MilestoneOrder

/-- One value for each milestone. -/
structure PerMilestone (α : Type) where
  complete : α
  safe : α
deriving DecidableEq, Repr

namespace PerMilestone

variable {α : Type}

/-- The same value for both. -/
def const (a : α) : PerMilestone α := ⟨a, a⟩

/-- The value for a milestone. -/
def get (p : PerMilestone α) : Milestone → α
  | .complete => p.complete
  | .safe => p.safe

/-- `p` with another value for the milestone. -/
def set (p : PerMilestone α) : Milestone → α → PerMilestone α
  | .complete, a => { p with complete := a }
  | .safe, a => { p with safe := a }

/-- `p` with `f` applied to the value for the milestone. -/
def modify (p : PerMilestone α) (m : Milestone) (f : α → α) : PerMilestone α :=
  p.set m (f (p.get m))

@[simp]
theorem get_const (a : α) (m : Milestone) : (const a).get m = a := by cases m <;> rfl

theorem get_set (p : PerMilestone α) (m n : Milestone) (a : α) :
    (p.set m a).get n = if m = n then a else p.get n := by
  cases m <;> cases n <;> rfl

@[simp]
theorem get_set_self (p : PerMilestone α) (m : Milestone) (a : α) : (p.set m a).get m = a := by
  cases m <;> rfl

end PerMilestone

end Milepost
