/-!
# Groups of processes

Clients are told apart by the group their processes are in. A supervisor says
what is to be known of a group, and reports what becomes of it.
-/

set_option autoImplicit false

namespace InkCompositor

/-- A group of processes. A window belongs to the group that created it. -/
abbrev Group := Int32

inductive Standing where
  | paused
  /-- Without a process. -/
  | gone
  /-- Without permission to open windows. -/
  | denied
  deriving DecidableEq, Repr

def Standing.all : List Standing := [paused, gone, denied]

structure Groups where
  holds : Standing → Group → Bool

namespace Groups

def unremarkable : Groups := ⟨fun _ _ => false⟩

/-- What the kernel says, when processes run in the groups `running`: groups
have positive numbers. It knows of no pause and denies nothing. -/
def ofKernel (running : List Group) : Groups where
  holds
    | .gone, group => !(decide (0 < group) && running.contains group)
    | .paused, _ | .denied, _ => false

def mark (g : Groups) (standing : Standing) (group : Group) (holds : Bool) : Groups where
  holds s h := if s = standing ∧ h = group then holds else g.holds s h

end Groups

inductive Lifecycle where
  | paused
  | resumed
  | exited
  | foreground
  | background
  deriving DecidableEq, Repr

end InkCompositor
