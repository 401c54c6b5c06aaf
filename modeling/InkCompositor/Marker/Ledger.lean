/-!
# The ledger of repaints and waits

Every processed repaint leaves a record under its window and marker. A caller
who wants to know when a repaint is on the glass enters a wait for the same
pair. A tick pairs the two up: where the panel may still be busy with an
update it is first waited for, once per record, and then the callers are
called back. A wait that grows too old is called back as well.
-/

set_option autoImplicit false

namespace InkCompositor

abbrev WindowId := Nat

abbrev Time := Nat

/-- The mark of a repaint; zero stands for none. -/
abbrev Marker := UInt64

structure Wait (κ : Type) where
  marker : Marker
  window : Option WindowId
  callback : κ
  deadline : Time
  deriving Repr

structure Record where
  /-- Mark of the last update the panel took, 0 if it took none. -/
  hardwareMarker : UInt32
  marker : Marker
  window : Option WindowId
  /-- Whether the panel has been waited for. -/
  waited : Bool
  /-- From here on the update counts as shown. -/
  resolveDeadline : Time
  /-- From here on the record is no longer kept. -/
  cleanupDeadline : Time
  deriving DecidableEq, Repr

namespace Record

def isFor (r : Record) (window : Option WindowId) (marker : Marker) : Bool :=
  r.window == window && r.marker == marker

def isSettled (r : Record) (now : Time) : Bool :=
  r.hardwareMarker == 0 || r.waited || decide (r.resolveDeadline ≤ now)

end Record

structure Ledger (κ : Type) where
  waitTimeout : Time
  recordLifetime : Time
  /-- In the order of entry. -/
  pending : List (Wait κ)
  /-- In the order of recording. -/
  records : List Record
  stopping : Bool

namespace Ledger

variable {κ : Type}

def fresh (waitTimeout recordLifetime : Time) : Ledger κ :=
  ⟨waitTimeout, recordLifetime, [], [], false⟩

def latest? (records : List Record) (window : Option WindowId) (marker : Marker) :
    Option Record :=
  records.reverse.find? (·.isFor window marker)

def markLatest (window : Option WindowId) (marker : Marker) : List Record → List Record
  | [] => []
  | r :: rest =>
    if r.isFor window marker && !rest.any (·.isFor window marker) then
      { r with waited := true } :: rest
    else r :: markLatest window marker rest

/-- Whether a wait need not be entered: it is for no marker, for a repaint
already recorded, or too late. -/
def resolvesAtOnce (l : Ledger κ) (window : Option WindowId) (marker : Marker) : Bool :=
  l.stopping || marker == 0 || (latest? l.records window marker).isSome

def addWait (l : Ledger κ) (now : Time) (window : Option WindowId) (marker : Marker)
    (callback : κ) : Ledger κ × Option κ :=
  if l.resolvesAtOnce window marker then (l, some callback)
  else ({ l with pending := l.pending ++ [⟨marker, window, callback, now + l.waitTimeout⟩] }, none)

def record (l : Ledger κ) (now : Time) (window : Option WindowId) (marker : Marker)
    (hardwareMarker : UInt32) (waited : Bool := false) : Ledger κ :=
  { l with records := l.records ++
      [⟨hardwareMarker, marker, window, waited, now + l.waitTimeout, now + l.recordLifetime⟩] }

inductive Verdict where
  /-- Nothing is known of its repaint. -/
  | keep
  /-- It may be called back. -/
  | ready
  /-- It is called back because it is too old. -/
  | timedOut
  /-- It may be called back once the panel has shown this update. -/
  | behind (hardwareMarker : UInt32)
  deriving DecidableEq, Repr

def verdict (records : List Record) (now : Time) (w : Wait κ) : Verdict :=
  if w.marker = 0 then .ready
  else if w.deadline ≤ now then .timedOut
  else
    match latest? records w.window w.marker with
    | none => .keep
    | some r => if r.isSettled now then .ready else .behind r.hardwareMarker

/-- What a tick leaves behind and what is to be done, in this order: for each
of `hardware` wait for the panel and call back, then call back `ready`. -/
structure Tick (κ : Type) where
  kept : List (Wait κ)
  records : List Record
  hardware : List (UInt32 × κ)
  ready : List κ
  /-- How many of `ready` were too old. -/
  timedOut : Nat

/-- Goes through the waits in order. A record waited for is settled for the
waits behind. -/
def sift (now : Time) (records : List Record) : List (Wait κ) → Tick κ
  | [] => ⟨[], records, [], [], 0⟩
  | w :: rest =>
    match verdict records now w with
    | .keep => let t := sift now records rest; { t with kept := w :: t.kept }
    | .ready => let t := sift now records rest; { t with ready := w.callback :: t.ready }
    | .timedOut =>
      let t := sift now records rest
      { t with ready := w.callback :: t.ready, timedOut := t.timedOut + 1 }
    | .behind marker =>
      let t := sift now (markLatest w.window w.marker records) rest
      { t with hardware := (marker, w.callback) :: t.hardware }

/-- The ledger after a tick, and what is to be done. Records past their
lifetime are dropped after the waits were looked at. -/
def tick (l : Ledger κ) (now : Time) : Ledger κ × Tick κ :=
  let t := sift now l.records l.pending
  ({ l with
      pending := t.kept
      records := t.records.filter fun r => decide (now < r.cleanupDeadline) }, t)

def refersTo (l : Ledger κ) (window : WindowId) : Bool :=
  l.pending.any fun w => w.window == some window

def shutDown (l : Ledger κ) : Ledger κ × List κ :=
  ({ l with pending := [], stopping := true }, l.pending.map (·.callback))

end Ledger

end InkCompositor
