import Mathlib
import InkCompositor.Config.Loading
import InkCompositor.Proofs.Config.Acceptance
import InkCompositor.Proofs.Raster.Allocation

/-!
# Sizes beyond 64 bits

The size of an image is the length of its lines times their number. A pool
refuses an image whose size is no 64-bit number. The size of a screen is not
looked at before its device file is mapped, nor that of memory an image is made
of: there it is said for which sizes the number overflows, and that no screen
with the extent of an image is among them.
-/

set_option autoImplicit false

namespace InkCompositor

variable {t u : FileTree}

namespace PixelFormat

variable (f : PixelFormat)

theorem bytesPerPixel_le : f.bytesPerPixel ≤ 4 := by cases f <;> decide

theorem line_lt {width : Nat} (h : width < wordLimit) :
    width * f.bytesPerPixel + 3 < Raster.sizeLimit ∧ f.strideFor width < Raster.sizeLimit := by
  have hline : width * f.bytesPerPixel ≤ width * 4 := Nat.mul_le_mul_left _ f.bytesPerPixel_le
  have hsize : wordLimit * 4 + 3 < Raster.sizeLimit := by decide
  rw [strideFor]
  omega

theorem strideFor_le (width : Nat) : f.strideFor width ≤ width * 4 := by
  have hline : width * f.bytesPerPixel ≤ width * 4 := Nat.mul_le_mul_left _ f.bytesPerPixel_le
  rw [strideFor]
  omega

end PixelFormat

namespace Raster

theorem lines_lt {width height line : Nat} (hw : width < extentLimit) (hh : height < extentLimit)
    (hl : line ≤ width * 4) : line * height < sizeLimit :=
  calc line * height ≤ (extentLimit - 1) * 4 * (extentLimit - 1) :=
        Nat.mul_le_mul (hl.trans (Nat.mul_le_mul_right 4 (Nat.le_sub_one_of_lt hw)))
          (Nat.le_sub_one_of_lt hh)
    _ < sizeLimit := by decide

theorem ofMemory_eq_overflow_iff (id : RasterId) (backing : Backing) (bytes : Array UInt8)
    (width height stride : Nat) (format : PixelFormat) :
    ofMemory id backing bytes width height stride format = .error .overflow ↔
      format ≠ .invalid ∧ (0 < width ∧ width < extentLimit) ∧ (0 < height ∧ height < extentLimit) ∧
        sizeLimit ≤ stride * height := by
  unfold ofMemory
  by_cases hf : format = .invalid
  · simp [hf]
  by_cases hd : width = 0 ∨ height = 0 ∨ extentLimit ≤ width ∨ extentLimit ≤ height
  · rw [dif_neg hf, dif_pos hd]
    simp only [Except.error.injEq, reduceCtorEq, false_iff]
    omega
  have hneeded : width * format.bytesPerPixel * height < sizeLimit :=
    lines_lt (by omega) (by omega) (Nat.mul_le_mul_left _ format.bytesPerPixel_le)
  have hmax : sizeLimit ≤ max stride (width * format.bytesPerPixel) * height ↔
      sizeLimit ≤ stride * height := by
    rcases max_choice stride (width * format.bytesPerPixel) with h | h
    · rw [h]
    · have hle : stride * height ≤ width * format.bytesPerPixel * height :=
        Nat.mul_le_mul_right _ (max_eq_right_iff.1 h)
      rw [h]
      omega
  have hextent : (0 < width ∧ width < extentLimit) ∧ 0 < height ∧ height < extentLimit := by omega
  rw [dif_neg hf, dif_neg hd]
  dsimp only
  by_cases ho : sizeLimit ≤ max stride (width * format.bytesPerPixel) * height
  · rw [dif_pos ho]
    exact iff_of_true rfl ⟨hf,hextent.1,hextent.2,hmax.1 ho⟩
  · rw [dif_neg ho]
    refine iff_of_false ?_ fun h => ho (hmax.2 h.2.2.2)
    split <;> rintro ⟨⟩

theorem measure_eq_badGeometry {width height : Nat} {format : PixelFormat}
    (hf : format ≠ .invalid) (hs : sizeLimit ≤ format.strideFor width * height) :
    measure width height format = .error (.badGeometry width height) := by
  unfold measure
  rw [if_neg hf, if_pos hs]
  split <;> rfl

end Raster

namespace Field

variable {σ : Type} {P : σ → Prop} {fields : List (Field σ)}

/-- Every field can only be set to what keeps a property. -/
def Keeps (fields : List (Field σ)) (P : σ → Prop) : Prop :=
  ∀ f ∈ fields, ∀ v s s', f.set v s = some s' → P s → P s'

theorem of_ofString {name : String} {set : String → σ → σ} {v : Toml.Value} {s s' : σ}
    (h : (ofString name set).set v s = some s') : ∃ text, s' = set text s := by
  cases v with
  | string text => exact ⟨text,(Option.some.inj h).symm⟩
  | _ => cases h

theorem of_ofNat {name : String} {limit : Nat} {set : Nat → σ → σ} {v : Toml.Value} {s s' : σ}
    (h : (ofNat name limit set).set v s = some s') : ∃ n, n < limit ∧ s' = set n s := by
  cases v with
  | integer n =>
    obtain ⟨hn,h⟩ := Option.ite_none_right_eq_some.1 h
    exact ⟨n.toNat,by omega,(Option.some.inj h).symm⟩
  | _ => cases h

theorem of_ofInt32 {name : String} {set : Int32 → σ → σ} {v : Toml.Value} {s s' : σ}
    (h : (ofInt32 name set).set v s = some s') : ∃ i, s' = set i s := by
  cases v with
  | integer n => exact ⟨.ofInt n,(Option.some.inj (Option.ite_none_right_eq_some.1 h).2).symm⟩
  | _ => cases h

variable (hk : Keeps fields P)
include hk

theorem Keeps.setNamed (entries : Toml.Entries) {s s' : σ}
    (h : setNamed fields entries s = some s') (hs : P s) : P s' := by
  unfold Field.setNamed at h
  induction entries generalizing s with
  | nil => exact Option.some.inj h ▸ hs
  | cons entry entries ih =>
    obtain ⟨e,he,h⟩ := Option.bind_eq_some_iff.1 h
    obtain ⟨f,hf,he⟩ := Option.bind_eq_some_iff.1 he
    exact ih h (hk f (List.mem_of_find?_eq_some hf) _ _ _ he hs)

theorem Keeps.setInOrder (values : List Toml.Value) {s s' : σ}
    (h : setInOrder fields values s = some s') (hs : P s) : P s' := by
  have hmem : ∀ p ∈ fields.zip values, p.1 ∈ fields := fun p hp => (List.of_mem_zip hp).1
  unfold Field.setInOrder at h
  generalize fields.zip values = pairs at h hmem
  induction pairs generalizing s with
  | nil => exact Option.some.inj h ▸ hs
  | cons p pairs ih =>
    obtain ⟨e,he,h⟩ := Option.bind_eq_some_iff.1 h
    exact ih (hk p.1 (hmem p (by simp)) _ _ _ he hs) h fun q hq => hmem q (by simp [hq])

theorem Keeps.setGroup {v : Toml.Value} {s s' : σ} (h : setGroup fields v s = some s')
    (hs : P s) : P s' := by
  cases v with
  | table closed entries => exact hk.setNamed entries h hs
  | array values => exact hk.setInOrder values h hs
  | _ => cases h

end Field

structure DisplaySettings.Words (s : DisplaySettings) : Prop where
  width : s.width < wordLimit
  height : s.height < wordLimit
  stride : ∀ stride, s.stride = some stride → stride < wordLimit

theorem DisplaySettings.keeps_words : Field.Keeps DisplaySettings.fields Words := by
  intro f hf v s s' h hs
  simp only [DisplaySettings.fields, List.mem_cons, List.not_mem_nil, or_false] at hf
  rcases hf with rfl | rfl | rfl | rfl | rfl | rfl
  · obtain ⟨text,rfl⟩ := Field.of_ofString h
    exact ⟨hs.width,hs.height,hs.stride⟩
  · obtain ⟨n,hn,rfl⟩ := Field.of_ofNat h
    exact ⟨hn,hs.height,hs.stride⟩
  · obtain ⟨n,hn,rfl⟩ := Field.of_ofNat h
    exact ⟨hs.width,hn,hs.stride⟩
  · obtain ⟨n,hn,rfl⟩ := Field.of_ofNat h
    exact ⟨hs.width,hs.height,fun stride hst => Option.some.inj hst ▸ hn⟩
  · obtain ⟨text,rfl⟩ := Field.of_ofString h
    exact ⟨hs.width,hs.height,hs.stride⟩
  · obtain ⟨i,rfl⟩ := Field.of_ofInt32 h
    exact ⟨hs.width,hs.height,hs.stride⟩

theorem DisplaySettings.words_default : Words {} := ⟨by decide,by decide,nofun⟩

theorem Settings.keeps_words : Field.Keeps groups fun s => s.display.Words := by
  intro f hf v s s' h hs
  simp only [groups, List.mem_cons, List.not_mem_nil, or_false] at hf
  rcases hf with rfl | rfl | rfl
  · obtain ⟨log,-,rfl⟩ := Option.map_eq_some_iff.1 h
    exact hs
  · obtain ⟨display,hd,rfl⟩ := Option.map_eq_some_iff.1 h
    exact DisplaySettings.keeps_words.setGroup hd DisplaySettings.words_default
  · obtain ⟨timings,-,rfl⟩ := Option.map_eq_some_iff.1 h
    exact hs

theorem Settings.words_of_text {parse? : String → Option Toml.Entries} {text : String}
    {s : Settings} (h : ofText? parse? text = some s) : s.display.Words := by
  unfold ofText? at h
  split at h
  · exact Option.some.inj h ▸ DisplaySettings.words_default
  · obtain ⟨entries,-,h⟩ := Option.bind_eq_some_iff.1 h
    exact Settings.keeps_words.setNamed entries h DisplaySettings.words_default

namespace Panel

theorem openDevice_eq_overflow_iff {s : DisplaySettings} {f : PixelFormat}
    (hf : PixelFormat.ofName? s.pixelFormat = some f) (file : DeviceFile) :
    openDevice s file = .error (.raster .overflow) ↔
      (∃ bytes maps, file = .opens bytes maps) ∧ Raster.sizeLimit ≤ s.strideIn f * s.height := by
  cases file with
  | missing => simp [openDevice, hf]
  | directory => simp [openDevice, hf]
  | opens bytes maps =>
    have hstride : s.stride.getD (f.strideFor s.width) = s.strideIn f := rfl
    simp only [openDevice, hf, hstride]
    by_cases hsize : Raster.sizeLimit ≤ s.strideIn f * s.height
    · simp [hsize]
    have hno := mt (Raster.ofMemory_eq_overflow_iff 0 .anonymous
      (mapped bytes (s.strideIn f * s.height)) s.width s.height (s.strideIn f) f).1
        fun h => hsize h.2.2.2
    rw [if_neg hsize]
    simp only [hsize, and_false, iff_false]
    split
    · simp
    split
    · simp
    split
    · simp
    · rename_i e he
      simpa [he] using hno

/-- Lines of a given length are too short for that, and lines without one are short enough unless
there are more of them, or more pixels in them, than in any image. -/
theorem overflow_of_accepted {s : DisplaySettings} (hn : s.normalized = .ok s) (hw : s.Words) :
    ∃ f, PixelFormat.ofName? s.pixelFormat = some f ∧
      (s.width * f.bytesPerPixel + 3 < Raster.sizeLimit ∧
        f.strideFor s.width < Raster.sizeLimit) ∧
      (∀ file, openDevice s file = .error (.raster .overflow) ↔
        (∃ bytes maps, file = .opens bytes maps) ∧ s.stride = none ∧
          Raster.sizeLimit ≤ f.strideFor s.width * s.height) ∧
      (Raster.sizeLimit ≤ f.strideFor s.width * s.height →
        Raster.extentLimit ≤ s.width ∨ Raster.extentLimit ≤ s.height) := by
  obtain ⟨-,-,f,hf,-,-⟩ := DisplaySettings.normalized_eq_ok_iff.1 hn
  refine ⟨f,hf,f.line_lt hw.width,fun file => ?_,fun hsize => ?_⟩
  · rw [openDevice_eq_overflow_iff hf]
    refine and_congr_right fun _ => ?_
    cases hs : s.stride with
    | none => simp [DisplaySettings.strideIn, hs]
    | some stride =>
      have hlt : stride * s.height < Raster.sizeLimit := by
        have hmul := Nat.mul_lt_mul'' (hw.stride stride hs) hw.height
        exact hmul.trans_le (by decide)
      simpa [DisplaySettings.strideIn, hs] using hlt
  · by_contra hno
    obtain ⟨hwidth,hheight⟩ : s.width < Raster.extentLimit ∧ s.height < Raster.extentLimit := by
      omega
    exact absurd (Raster.lines_lt hwidth hheight (f.strideFor_le s.width)) (Nat.not_lt.2 hsize)

end Panel

/-- Where the size of an image is found to be no 64-bit number. For memory it takes nothing but the
length that its lines are said to have. A pool refuses the image instead. For a screen that was
accepted it takes lines without a given length, and an extent that no image has. -/
theorem sizes_counted (id : RasterId) (backing : Backing) (bytes : Array UInt8)
    (width height stride : Nat) (format : PixelFormat) :
    (Raster.ofMemory id backing bytes width height stride format = .error .overflow ↔
      format ≠ .invalid ∧ (0 < width ∧ width < Raster.extentLimit) ∧
        (0 < height ∧ height < Raster.extentLimit) ∧ Raster.sizeLimit ≤ stride * height) ∧
    (Raster.measure width height format ≠ .error .overflow ∧
      (format ≠ .invalid → Raster.sizeLimit ≤ format.strideFor width * height →
        Raster.measure width height format = .error (.badGeometry width height))) ∧
    (∀ (t u : FileTree) (s s' : Settings), s.validate t = (u,.ok s') → s.display.Words →
      ∃ f, PixelFormat.ofName? s'.display.pixelFormat = some f ∧
        (s'.display.width * f.bytesPerPixel + 3 < Raster.sizeLimit ∧
          f.strideFor s'.display.width < Raster.sizeLimit) ∧
        (∀ file, Panel.openDevice s'.display file = .error (.raster .overflow) ↔
          (∃ bytes maps, file = .opens bytes maps) ∧ s'.display.stride = none ∧
            Raster.sizeLimit ≤ f.strideFor s'.display.width * s'.display.height) ∧
        (Raster.sizeLimit ≤ f.strideFor s'.display.width * s'.display.height →
          Raster.extentLimit ≤ s'.display.width ∨ Raster.extentLimit ≤ s'.display.height)) ∧
    ∀ (parse? : String → Option Toml.Entries) (text : String) (s : Settings),
      Settings.ofText? parse? text = some s → s.display.Words := by
  refine ⟨Raster.ofMemory_eq_overflow_iff ..,
    ⟨(Raster.measure_spec width height format).1,Raster.measure_eq_badGeometry⟩,
    fun t u s s' h hw => ?_,fun _ _ _ => Settings.words_of_text⟩
  obtain ⟨log,display,-,-,hdisplay,-,rfl⟩ := Settings.validate_eq_ok_iff.1 h
  obtain ⟨-,-,f,-,-,rfl⟩ := DisplaySettings.normalized_eq_ok_iff.1 hdisplay
  exact Panel.overflow_of_accepted (DisplaySettings.normalized_normalized hdisplay)
    ⟨hw.width,hw.height,hw.stride⟩

/-- As many lines as can be asked for, and as many pixels in each. -/
def vast : Settings := { display := { width := 4294967295, height := 4294967295 } }

theorem sizes_counted_vast :
    let t := FileTree.ofList [] [] []
    vast.validate t = (t,.ok vast) ∧ vast.display.Words ∧
      Panel.openDevice vast.display (.plain #[]) = .error (.raster .overflow) ∧
      PixelFormat.rgb16 ≠ .invalid ∧
      Raster.sizeLimit ≤ PixelFormat.rgb16.strideFor 4294967295 * 4294967295 ∧
      Raster.measure 4294967295 4294967295 .rgb16 =
        .error (.badGeometry 4294967295 4294967295) := by
  intro t
  have h : vast.validate t = (t,.ok vast) := Prod.ext rfl (by decide +kernel)
  have hw : vast.display.Words := ⟨by decide,by decide,nofun⟩
  have hsize : Raster.sizeLimit ≤ PixelFormat.rgb16.strideFor 4294967295 * 4294967295 := by decide
  obtain ⟨-,⟨-,hmeasure⟩,hopen,-⟩ :=
    sizes_counted 0 .anonymous #[] 4294967295 4294967295 0 .rgb16
  obtain ⟨f,hf,-,hoverflow,-⟩ := hopen t t vast vast h hw
  obtain rfl : f = .rgb16 := by
    have hrgb : PixelFormat.ofName? "rgb16" = some .rgb16 := by decide
    exact Option.some.inj (hf.symm.trans hrgb)
  exact ⟨h,hw,(hoverflow _).2 ⟨⟨_,_,rfl⟩,rfl,hsize⟩,by decide,hsize,
    hmeasure (by decide) hsize⟩

/-- A text describes that screen, and its settings are accepted. -/
theorem vast_screen_overflows :
    (Settings.fromText (FileTree.ofList [] [] [])
      "[display]\nwidth = 4294967295\nheight = 4294967295\n").2 = .ok vast ∧
    Panel.openDevice vast.display (.plain #[]) = .error (.raster .overflow) ∧
    Raster.ofMemory 0 .anonymous #[0,0,0,0] 1 2 9223372036854775808 .rgb16 = .error .overflow := by
  refine ⟨by decide +kernel,?_,?_⟩
  · have hrgb : PixelFormat.ofName? vast.display.pixelFormat = some .rgb16 := by decide
    exact (Panel.openDevice_eq_overflow_iff hrgb _).2 ⟨⟨_,_,rfl⟩,by decide⟩
  · exact (Raster.ofMemory_eq_overflow_iff ..).2 (by decide)

end InkCompositor
