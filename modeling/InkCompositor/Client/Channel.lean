import InkCompositor.Wire.Reassembler

/-!
# Pipes between the compositor and a client

A pipe carries bytes both ways. The compositor never waits on it: a message
that finds no room is dropped whole, and one that was taken in part ends the
pipe, because nothing behind it could be told apart. The bytes towards the
client are kept in full together with how far the client has read, and so are
the messages with what became of them, so that what was ever sent can be looked
at.
-/

set_option autoImplicit false

namespace InkCompositor

open Wire

inductive ChannelKind where
  | touch
  | tablet
  | key
  | event
  deriving DecidableEq, Repr

def ChannelKind.all : List ChannelKind := [touch, tablet, key, event]

def ChannelKind.name : ChannelKind → String
  | touch => "touch"
  | tablet => "tablet"
  | key => "key"
  | event => "event"

inductive Acceptance where
  /-- It takes this many bytes, at most all of them. -/
  | took (count : Nat)
  /-- There is no room. -/
  | full
  /-- The client no longer reads. -/
  | broken
  deriving DecidableEq, Repr, Inhabited

/-- A socket, by how it takes a message: that may depend on whether the client
still reads, on how many messages there were before, on how many bytes the
client has not read yet, and on how many there are now. -/
abbrev Socket := Bool → Nat → Nat → Nat → Acceptance

/-- A socket that takes bytes while it holds less than `capacity`, in pieces of
at most `piece` bytes, each whole or not at all. -/
def Socket.buffered (capacity piece : Nat) : Socket := fun reading _ held length =>
  if !reading then .broken
  else
    let count := min length ((capacity - held + piece - 1) / piece * piece)
    if count = 0 then .full else .took count

def Socket.usual : Socket := .buffered 212992 32768

inductive Delivery where
  | sent
  | dropped
  /-- Only a part was taken, and the pipe is closed. -/
  | cut
  | failed
  | closed
  deriving DecidableEq, Repr

structure Channel where
  /-- Whether the compositor holds its end. -/
  isOpen : Bool
  /-- Every byte the socket ever took for the client. -/
  outgoing : Array UInt8
  /-- How many of them the client has read. -/
  taken : Nat
  /-- Bytes from the client that the compositor has not read. -/
  incoming : List UInt8
  reader : Reassembler
  /-- The client's reader. -/
  clientReader : Reassembler
  clientReads : Bool
  clientWrites : Bool
  /-- Every message that there was for the socket, with what became of it. -/
  posted : Array (Message × Delivery)
  socket : Socket
  deriving Inhabited

namespace Channel

def fresh (socket : Socket := .usual) : Channel :=
  ⟨true, #[], 0, [], .fresh, .fresh, true, true, #[], socket⟩

def acceptance (c : Channel) (length : Nat) : Acceptance :=
  c.socket c.clientReads c.posted.size (c.outgoing.size - c.taken) length

def shutDown (c : Channel) : Channel := { c with isOpen := false }

def noted (c : Channel) (m : Message) (delivery : Delivery) : Channel :=
  { c with posted := c.posted.push (m, delivery) }

@[simp] theorem isOpen_noted (c : Channel) (m : Message) (delivery : Delivery) :
    (c.noted m delivery).isOpen = c.isOpen := rfl

@[simp] theorem outgoing_noted (c : Channel) (m : Message) (delivery : Delivery) :
    (c.noted m delivery).outgoing = c.outgoing := rfl

@[simp] theorem posted_noted (c : Channel) (m : Message) (delivery : Delivery) :
    (c.noted m delivery).posted = c.posted.push (m, delivery) := rfl

def sendWith (c : Channel) (m : Message) (a : Acceptance) : Channel × Delivery :=
  if !c.isOpen then (c, .closed)
  else
    let bytes := m.encode
    match a with
    | .full => (c.noted m .dropped, .dropped)
    | .broken => (c.noted m .failed, .failed)
    | .took count =>
      let c := { c with outgoing := c.outgoing ++ bytes.take count }
      if bytes.length ≤ count then (c.noted m .sent, .sent) else (c.shutDown.noted m .cut, .cut)

def send (c : Channel) (m : Message) : Channel × Delivery :=
  c.sendWith m (c.acceptance m.encode.length)

def closeWith (c : Channel) (a : Acceptance) : Channel × Delivery :=
  let (c, delivery) := c.sendWith .close a
  (c.shutDown, delivery)

def close (c : Channel) : Channel × Delivery :=
  c.closeWith (c.acceptance Message.close.encode.length)

/-- Reads everything the client has written. Messages read before a malformed
one are lost with it. -/
def receive (c : Channel) : Channel × Except WireError (List Message) :=
  if !c.isOpen then (c, .ok [])
  else
    let (messages, error?, reader) := (c.reader.push c.incoming).drain
    ({ c with incoming := [], reader },
      match error? with
      | some e => .error e
      | none => .ok messages)

/-- The client writes; it succeeds while both ends allow it. To write nothing
always succeeds. -/
def clientWrite (c : Channel) (bytes : List UInt8) : Channel × Bool :=
  if c.isOpen && c.clientWrites then ({ c with incoming := c.incoming ++ bytes }, true)
  else (c, bytes.isEmpty)

def clientStop (c : Channel) (reading writing : Bool) : Channel :=
  { c with
    clientReads := c.clientReads && !reading
    clientWrites := c.clientWrites && !writing }

def atEnd (c : Channel) : Bool := !c.isOpen || !c.clientReads

def clientRead (c : Channel) : Channel × List Message × Option WireError :=
  let bytes := (c.outgoing.extract c.taken c.outgoing.size).toList
  let (messages, error?, reader) := (c.clientReader.push bytes).drain
  ({ c with taken := c.outgoing.size, clientReader := reader }, messages, error?)

def clientDiscard (c : Channel) : Channel := { c with taken := c.outgoing.size }

end Channel

end InkCompositor
