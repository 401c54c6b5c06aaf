/-!
# Layouts

A layout is a way to write a value as bytes together with the way to read it
back from the front of a byte string. Layouts of parts are put together to
layouts of records, so that writing and reading cannot drift apart. Words are
written with the low byte first.
-/

set_option autoImplicit false

namespace InkCompositor.Wire

inductive WireError where
  | unknownType (code : UInt16)
  /-- More bytes are needed. -/
  | truncated
  | invalidEnum (field : String) (value : UInt16)
  | tooLarge (field : String) (value max : UInt32)
  deriving DecidableEq, Repr

def WireError.message : WireError → String
  | unknownType code => s!"Unknown message type {code}"
  | truncated => "Message truncated"
  | invalidEnum field value => s!"Invalid value {value} for {field}"
  | tooLarge field value max => s!"{field} of {value} exceeds the limit of {max}"

/-- What reading yields: a value and the bytes behind it. -/
abbrev Reading (α : Type) := Except WireError (α × List UInt8)

structure Layout (α : Type) where
  write : α → List UInt8
  read : List UInt8 → Reading α

def lowBytes : Nat → Nat → List UInt8
  | 0, _ => []
  | width + 1, n => .ofNat n :: lowBytes width (n / 256)

def ofLowBytes : List UInt8 → Nat
  | [] => 0
  | b :: rest => b.toNat + 256 * ofLowBytes rest

namespace Layout

variable {α β : Type}

def word (width : Nat) (toNat : α → Nat) (ofNat : Nat → α) : Layout α where
  write a := lowBytes width (toNat a)
  read bytes :=
    let front := bytes.take width
    if front.length < width then .error .truncated
    else .ok (ofNat (ofLowBytes front), bytes.drop width)

def u16 : Layout UInt16 := word 2 UInt16.toNat UInt16.ofNat
def u32 : Layout UInt32 := word 4 UInt32.toNat UInt32.ofNat
def u64 : Layout UInt64 := word 8 UInt64.toNat UInt64.ofNat
def i32 : Layout Int32 := word 4 (·.toUInt32.toNat) (UInt32.ofNat · |>.toInt32)

def as (c : Layout α) (f : α → β) (back : β → α) : Layout β where
  write b := c.write (back b)
  read bytes := (c.read bytes).bind fun (a, rest) => .ok (f a, rest)

def pair (c : Layout α) (d : Layout β) : Layout (α × β) where
  write p := c.write p.1 ++ d.write p.2
  read bytes :=
    (c.read bytes).bind fun (a, rest) =>
      (d.read rest).bind fun (b, rest) => .ok ((a, b), rest)

def unit (a : α) : Layout α where
  write _ := []
  read bytes := .ok (a, bytes)

def choice (field : String) (code : α → UInt16) (ofCode? : UInt16 → Option α) : Layout α where
  write a := u16.write (code a)
  read bytes :=
    (u16.read bytes).bind fun (n, rest) =>
      match ofCode? n with
      | some a => .ok (a, rest)
      | none => .error (.invalidEnum field n)

def readMany (c : Layout α) : Nat → List UInt8 → Reading (List α)
  | 0, bytes => .ok ([], bytes)
  | n + 1, bytes =>
    (c.read bytes).bind fun (a, rest) =>
      (readMany c n rest).bind fun (more, rest) => .ok (a :: more, rest)

/-- A list behind a header that holds its length; a length over `max` is
refused before the rest of the header is read. -/
def counted (field : String) (max : UInt32) (head : Layout β) (c : Layout α) :
    Layout (β × List α) where
  write p := u32.write (.ofNat p.2.length) ++ head.write p.1 ++ p.2.flatMap c.write
  read bytes :=
    (u32.read bytes).bind fun (n, rest) =>
      if max < n then .error (.tooLarge field n max)
      else
        (head.read rest).bind fun (b, rest) =>
          (readMany c n.toNat rest).bind fun (more, rest) => .ok ((b, more), rest)

end Layout

end InkCompositor.Wire
