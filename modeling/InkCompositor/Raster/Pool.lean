import InkCompositor.Raster.Basic

/-!
# Allocation of rasters

A pool hands out rasters cleared to the background of their format and keeps
the numbers of those still in use. An attempt fails when the geometry is bad,
when the size is no 64-bit number, or when the system refuses the memory; which
attempts it refuses how much is a parameter of the pool.
-/

set_option autoImplicit false

namespace InkCompositor

namespace Raster

/-- The executable's system has no memory beyond half of what 48 bits address. -/
def unaddressable (size : Nat) : Bool := decide (140737488355328 ≤ size)

def fileLimit : Nat := 9223372036854775808

def measure (width height : Nat) (format : PixelFormat) : Except RasterError (Nat × Nat) :=
  if format = .invalid then .error (.unsupported format)
  else if width = 0 ∨ height = 0 then .error (.badGeometry width height)
  else
    let stride := format.strideFor width
    if sizeLimit ≤ stride * height then .error (.badGeometry width height)
    else .ok (stride, stride * height)

/-- Why there is no memory of `size` bytes, if the system refuses it. -/
def refusal? (backing : Backing) (size : Nat) (refused : Bool) : Option RasterError :=
  if backing = .sealedFile ∧ fileLimit ≤ size then some .truncate
  else if refused then some .map
  else none

def allocate (id : RasterId) (backing : Backing) (width height : Nat) (format : PixelFormat)
    (refuses : Nat → Bool := unaddressable) : Except RasterError Raster := do
  let (stride, size) ← measure width height format
  match refusal? backing size (refuses size) with
  | some e => .error e
  | none =>
    if extentLimit ≤ width ∨ extentLimit ≤ height then .error (.badGeometry width height)
    else ofMemory id backing (Array.replicate size 0) width height stride format

end Raster

structure RasterPool where
  backing : Backing
  /-- The number of the next attempt, and of the raster it yields. -/
  next : RasterId
  /-- The rasters in use. -/
  live : List RasterId
  /-- Whether the system refuses so many bytes to an attempt. -/
  refuses : RasterId → Nat → Bool

namespace RasterPool

def ofBacking (backing : Backing)
    (refuses : RasterId → Nat → Bool := fun _ => Raster.unaddressable) : RasterPool :=
  ⟨backing, 1, [], refuses⟩

def allocate (p : RasterPool) (width height : Nat) (format : PixelFormat) :
    RasterPool × Except RasterError Raster :=
  match Raster.allocate p.next p.backing width height format (p.refuses p.next) with
  | .ok r =>
    ({ p with next := p.next + 1, live := p.live ++ [r.id] }, .ok (r.fill format.background))
  | .error e => ({ p with next := p.next + 1 }, .error e)

def release (p : RasterPool) (id : RasterId) : RasterPool :=
  { p with live := p.live.filter (· != id) }

end RasterPool

end InkCompositor
