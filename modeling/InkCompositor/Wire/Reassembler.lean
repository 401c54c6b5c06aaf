import InkCompositor.Wire.Encoding

/-!
# Messages from a stream

A stream may deliver a message in pieces. The bytes received so far wait until
they hold a whole message. Behind a malformed message nothing can be told
apart any more, so it takes all waiting bytes with it.
-/

set_option autoImplicit false

namespace InkCompositor.Wire

structure Reassembler where
  waiting : List UInt8
  deriving DecidableEq, Repr, Inhabited

namespace Reassembler

def fresh : Reassembler := ⟨[]⟩

def push (r : Reassembler) (bytes : List UInt8) : Reassembler := ⟨r.waiting ++ bytes⟩

def buffered (r : Reassembler) : Nat := r.waiting.length

def next (r : Reassembler) : Except WireError (Option Message) × Reassembler :=
  match Message.read r.waiting with
  | .ok (m, rest) => (.ok (some m), ⟨rest⟩)
  | .error .truncated => (.ok none, r)
  | .error e => (.error e, ⟨[]⟩)

def takeUpTo : Nat → Reassembler → List Message × Option WireError × Reassembler
  | 0, r => ([], none, r)
  | fuel + 1, r =>
    match r.next with
    | (.ok (some m), r) =>
      let (more, e, r) := takeUpTo fuel r
      (m :: more, e, r)
    | (.ok none, r) => ([], none, r)
    | (.error e, r) => ([], some e, r)

/-- Takes messages until more bytes are needed or one is malformed. Every
message takes bytes with it, so there are at most as many as bytes. -/
def drain (r : Reassembler) : List Message × Option WireError × Reassembler :=
  takeUpTo (r.buffered + 1) r

end Reassembler

end InkCompositor.Wire
