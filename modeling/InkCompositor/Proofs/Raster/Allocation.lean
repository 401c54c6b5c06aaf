import Mathlib
import InkCompositor.Proofs.Raster.Painting
import InkCompositor.Raster.Pool

/-!
# Images from a pool

Every image that a pool hands out has a number that no image had before, and
the size and format that were asked for.
-/

set_option autoImplicit false

namespace InkCompositor

namespace Raster

theorem of_ofMemory {id : RasterId} {backing : Backing} {bytes : Array UInt8}
    {width height stride : Nat} {format : PixelFormat} {r : Raster}
    (h : ofMemory id backing bytes width height stride format = .ok r) :
    r.id = id ∧ r.width = width ∧ r.height = height ∧ r.format = format := by
  unfold ofMemory at h
  split at h
  · cases h
  split at h
  · cases h
  simp only at h
  split at h
  · cases h
  split at h
  · cases h
  · cases h
    exact ⟨rfl,rfl,rfl,rfl⟩

theorem of_allocate {id : RasterId} {backing : Backing} {width height : Nat}
    {format : PixelFormat} {refuses : Nat → Bool} {r : Raster}
    (h : allocate id backing width height format refuses = .ok r) :
    r.id = id ∧ r.width = width ∧ r.height = height ∧ r.format = format := by
  cases hm : measure width height format with
  | error e => simp [allocate, hm, bind, Except.bind] at h
  | ok m =>
    simp only [allocate, hm, bind, Except.bind] at h
    split at h
    · cases h
    split at h
    · cases h
    · exact of_ofMemory h

end Raster

/-- An image from a pool has a number of its own and the size and format asked for. -/
theorem RasterPool.allocate_spec (p : RasterPool) (width height : Nat) (format : PixelFormat) :
    (p.allocate width height format).1.next = p.next+1 ∧
      ∀ r, (p.allocate width height format).2 = .ok r →
        r.id = p.next ∧ r.width = width ∧ r.height = height ∧ r.format = format := by
  unfold allocate
  split
  · rename_i r hr
    refine ⟨rfl,fun s hs => ?_⟩
    obtain ⟨h1,h2,h3,h4⟩ := Raster.of_allocate hr
    have ha := Raster.fillRect_alike r r.rect format.background
    rw [← Except.ok.inj hs]
    exact ⟨ha.id.trans h1,ha.width.trans h2,ha.height.trans h3,ha.format.trans h4⟩
  · exact ⟨rfl,fun r hr => by cases hr⟩

theorem RasterPool.live_allocate (p : RasterPool) (width height : Nat) (format : PixelFormat) :
    (p.allocate width height format).1.live =
      p.live ++ (p.allocate width height format).2.toOption.toList.map (·.id) := by
  unfold allocate
  split
  · rename_i r _
    simp [Except.toOption, (Raster.fillRect_alike r r.rect format.background).id, Raster.fill]
  · simp [Except.toOption]

theorem Raster.measure_spec (width height : Nat) (format : PixelFormat) :
    measure width height format ≠ .error .overflow ∧ ∀ m, measure width height format = .ok m →
      m.1 = format.strideFor width ∧ m.1*height < sizeLimit := by
  unfold measure
  split
  · exact ⟨nofun,nofun⟩
  split
  · exact ⟨nofun,nofun⟩
  simp only
  split
  · exact ⟨nofun,nofun⟩
  · rename_i hsize
    refine ⟨nofun,fun m hm => ?_⟩
    cases hm
    exact ⟨rfl,Nat.lt_of_not_le hsize⟩

theorem Raster.refusal_ne_overflow (backing : Backing) (size : Nat) (refused : Bool) :
    refusal? backing size refused ≠ some .overflow := by
  unfold refusal?
  split
  · nofun
  · split
    · nofun
    · nofun

/-- The size of an image is counted before the image is set up, so it is never found too late that
it is no 64-bit number. -/
theorem Raster.allocate_ne_overflow (id : RasterId) (backing : Backing) (width height : Nat)
    (format : PixelFormat) (refuses : Nat → Bool) :
    allocate id backing width height format refuses ≠ .error .overflow := by
  intro h
  obtain ⟨hne,hok⟩ := measure_spec width height format
  cases hm : measure width height format with
  | error e =>
    have he : e = .overflow := by simpa [allocate, hm, bind, Except.bind] using h
    exact hne (hm.trans (congrArg _ he))
  | ok m =>
    obtain ⟨hs,hlt⟩ := hok m hm
    have hline : max m.1 (width*format.bytesPerPixel) = m.1 := by
      rw [hs, PixelFormat.strideFor]
      omega
    simp only [allocate, hm, bind, Except.bind] at h
    split at h
    · rename_i e he
      exact refusal_ne_overflow _ _ _ (he.trans (congrArg _ (Except.error.inj h)))
    split at h
    · cases h
    unfold ofMemory at h
    split at h
    · cases h
    split at h
    · cases h
    simp only [hline] at h
    split at h
    · exact absurd hlt (Nat.not_lt.2 ‹_›)
    split at h
    · cases h
    · cases h

theorem RasterPool.allocate_ne_overflow (p : RasterPool) (width height : Nat)
    (format : PixelFormat) : (p.allocate width height format).2 ≠ .error .overflow := by
  have h := Raster.allocate_ne_overflow p.next p.backing width height format (p.refuses p.next)
  unfold allocate
  split
  · nofun
  · rename_i e he
    exact fun heq => h (he.trans heq)

theorem Raster.ofNat_toNat {i : Int32} (h : 0 < i.toInt) : Int32.ofNat i.toInt.toNat = i := by
  have hlt := i.toInt_lt
  apply Int32.toInt_inj.1
  rw [Int32.toInt_ofNat_of_lt (by omega)]
  omega

theorem Raster.rect_eq_atOrigin {r : Raster} {g : Rect} (hg : g.isEmpty = false)
    (hw : r.width = g.width.toInt.toNat) (hh : r.height = g.height.toInt.toNat) :
    r.rect = g.atOrigin := by
  obtain ⟨h1,h2⟩ := (Rect.not_isEmpty_iff g).1 hg
  rw [Raster.rect, hw, hh, ofNat_toNat h1, ofNat_toNat h2, Rect.atOrigin]

end InkCompositor
