import InkCompositor.Desktop.State

/-!
# Waiting for repaints

The desktop's side of the ledger: entering waits, recording repaints, and the
tick that waits for the panel and calls back.
-/

set_option autoImplicit false

namespace InkCompositor.Desktop

/-- Calls back. A client is told on its event pipe, if its window still
exists. -/
def runCallback (d : Desktop) (c : Callback) : Desktop :=
  let d := d.emit (.calledBack c)
  match c with
  | .outside _ | .proceed => d
  | .answer id marker => d.send id .event (.waitForPaint marker)

def addWait (d : Desktop) (window : Option WindowId) (marker : Marker) (c : Callback) : Desktop :=
  match d.ledger.addWait d.now window marker c with
  | (ledger, none) => { d with ledger }.reckon (d.now + d.ledger.waitTimeout)
  | (ledger, some c) =>
    ({ d with ledger }.log .trace "Wait resolved immediately").runCallback c

def record (d : Desktop) (window : Option WindowId) (marker : Marker) (hardwareMarker : UInt32) :
    Desktop :=
  (({ d with ledger := d.ledger.record d.now window marker hardwareMarker }.reckon
    (d.now + d.ledger.waitTimeout)).reckon (d.now + d.ledger.recordLifetime)).emit
      (.recorded window marker hardwareMarker)

def awaitPanel (d : Desktop) (marker : UInt32) (complaint : String) : Desktop :=
  let d := d.emit (.awaited marker)
  if d.panel.refusesWait marker then d.log .warn complaint else d

def logTimes (d : Desktop) (n : Nat) (level : Level) (text : String) : Desktop :=
  n.repeat (·.log level text) d

def tick (d : Desktop) : Desktop :=
  let (ledger, t) := d.ledger.tick d.now
  let d := { d with ledger }.logTimes t.timedOut .debug "Wait timed out"
  let d := t.hardware.foldl (fun d (marker, c) =>
    (d.awaitPanel marker "Waiting for update completion failed").runCallback c) d
  t.ready.foldl runCallback d

def stopWaiting (d : Desktop) : Desktop :=
  let (ledger, callbacks) := d.ledger.shutDown
  let d := callbacks.foldl runCallback { d with ledger }
  if callbacks.isEmpty then d else d.log .info "Resolved outstanding waits on shutdown"

end InkCompositor.Desktop
