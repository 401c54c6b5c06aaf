import Mathlib
import InkCompositor.Config.Validation
import InkCompositor.Display.Device
import InkCompositor.Proofs.Files.Directories

/-!
# Settings that are accepted

Settings are accepted once and for all: what comes out of the validation passes
it again as it is. The formats that are known to it are those of the panels, so
the device file of accepted settings can be opened unless the system refuses.
-/

set_option autoImplicit false

namespace InkCompositor

variable {t u : FileTree}

@[simp] theorem Level.lowerCase_name (l : Level) : Text.lowerCase l.name = l.name := by
  cases l <;> rfl

theorem Level.name_of_ofName? {name : String} {l : Level} (h : Level.ofName? name = some l) :
    l.name = name := by simpa using List.find?_some h

@[simp] theorem PixelFormat.lowerCase_name (f : PixelFormat) : Text.lowerCase f.name = f.name := by
  cases f <;> rfl

theorem PixelFormat.ofName?_spec {name : String} {f : PixelFormat}
    (h : PixelFormat.ofName? name = some f) : f ≠ .invalid ∧ f.name = Text.lowerCase name := by
  refine ⟨?_,by simpa using List.find?_some h⟩
  have hm := List.mem_filter.1 (List.mem_of_find?_eq_some h)
  simpa using hm.2

theorem PixelFormat.ofName?_name {f : PixelFormat} (h : f ≠ .invalid) :
    PixelFormat.ofName? f.name = some f := by
  rw [ofName?, lowerCase_name]
  cases f with
  | invalid => exact absurd rfl h
  | _ => rfl

namespace DisplaySettings

theorem lookup_knownFormats (name : String) : knownFormats.lookup (Text.lowerCase name) =
    (PixelFormat.ofName? name).map (·.bytesPerPixel) := by
  rw [PixelFormat.ofName?]
  generalize Text.lowerCase name = n
  by_cases hn : n ∈ knownFormats.map (·.1)
  · have hknown : ∀ n ∈ knownFormats.map (·.1), knownFormats.lookup n =
        ((PixelFormat.all.filter (· != .invalid)).find? (·.name == n)).map (·.bytesPerPixel) := by
      decide
    exact hknown n hn
  · have hnames : ∀ f ∈ PixelFormat.all.filter (· != .invalid),
        f.name ∈ knownFormats.map (·.1) := by decide
    rw [List.lookup_eq_none_iff.2, List.find?_eq_none.2, Option.map_none]
    · intro f hf he
      exact hn (beq_iff_eq.1 he ▸ hnames f hf)
    · intro p hp
      exact bne_iff_ne.2 fun he => hn (he ▸ List.mem_map_of_mem hp)

theorem normalized_eq_ok_iff {s s' : DisplaySettings} : s.normalized = .ok s' ↔
    s.width ≠ 0 ∧ s.height ≠ 0 ∧ ∃ format, PixelFormat.ofName? s.pixelFormat = some format ∧
      (∀ stride, s.stride = some stride → s.width * format.bytesPerPixel ≤ stride) ∧
      { s with pixelFormat := format.name } = s' := by
  by_cases hempty : s.width = 0 ∨ s.height = 0
  · have hno : ¬ (s.width ≠ 0 ∧ s.height ≠ 0) := by omega
    simp only [normalized, if_pos hempty, reduceCtorEq, false_iff]
    exact fun ⟨hw,hh,_⟩ => hno ⟨hw,hh⟩
  have hscreen : s.width ≠ 0 ∧ s.height ≠ 0 := by omega
  simp only [normalized, lookup_knownFormats, hscreen, ne_eq, not_false_eq_true,
    true_and]
  cases hf : PixelFormat.ofName? s.pixelFormat with
  | none => simp
  | some format =>
    rw [← (PixelFormat.ofName?_spec hf).2]
    cases hs : s.stride with
    | none => simp
    | some stride =>
      by_cases hshort : stride < s.width * format.bytesPerPixel
      · simp [hshort]
      · simp [hshort, Nat.le_of_not_lt hshort]

/-- What has been accepted is accepted as it is. -/
theorem normalized_normalized {s s' : DisplaySettings} (h : s.normalized = .ok s') :
    s'.normalized = .ok s' := by
  obtain ⟨hw,hh,format,hf,hstride,rfl⟩ := normalized_eq_ok_iff.1 h
  have hname := PixelFormat.ofName?_name (PixelFormat.ofName?_spec hf).1
  exact normalized_eq_ok_iff.2 ⟨hw,hh,format,hname,hstride,rfl⟩

end DisplaySettings

namespace LogSettings

theorem normalized_eq_ok_iff {s s' : LogSettings} : s.normalized = .ok s' ↔
    (Level.ofName? (Text.lowerCase s.level)).isSome = true ∧ Text.lowerCase s.format ∈ formats ∧
      { s with level := Text.lowerCase s.level, format := Text.lowerCase s.format } = s' := by
  unfold normalized
  by_cases hl : (Level.ofName? (Text.lowerCase s.level)).isNone = true
  · simp [Option.isNone_iff_eq_none.1 hl]
  · have hsome : (Level.ofName? (Text.lowerCase s.level)).isSome = true := by
      simpa [Option.isSome_iff_ne_none] using hl
    by_cases hf : Text.lowerCase s.format ∈ formats <;> simp [hl, hsome, hf]

theorem normalized_normalized {s s' : LogSettings} (h : s.normalized = .ok s') :
    s'.normalized = .ok s' := by
  obtain ⟨hl,hf,rfl⟩ := normalized_eq_ok_iff.1 h
  have hlevel : Text.lowerCase (Text.lowerCase s.level) = Text.lowerCase s.level := by
    obtain ⟨l,hl⟩ := Option.isSome_iff_exists.1 hl
    rw [← Level.name_of_ofName? hl, Level.lowerCase_name]
  have hformat : ∀ name ∈ formats, Text.lowerCase name = name := by decide
  rw [normalized_eq_ok_iff]
  simp only [hlevel, hformat _ hf]
  exact ⟨hl,hf,trivial⟩

variable {s : LogSettings} {p : String}

theorem ne_empty_of_directory? (h : s.directory? = some p) : p ≠ "" := by
  unfold directory? at h
  simpa using (Option.filter_eq_some_iff.1 h).2

theorem makeDirectory_of_holds (hd : s.directory? = some p) (h : t.holds p = true) :
    s.makeDirectory t = (t,none) := by
  unfold makeDirectory
  rw [hd]
  exact if_pos h

theorem makeDirectory_of_not_holds (hd : s.directory? = some p) (h : t.holds p = false) :
    s.makeDirectory t = t.ensureDirectory p := by
  unfold makeDirectory
  rw [hd]
  exact if_neg (by simp [h])

theorem makeDirectory_again (h : s.makeDirectory t = (u,none)) :
    s.makeDirectory u = (u,none) := by
  cases hd : s.directory? with
  | none =>
    unfold makeDirectory
    rw [hd]
  | some p =>
    apply makeDirectory_of_holds hd
    cases hp : t.holds p with
    | true =>
      rw [makeDirectory_of_holds hd hp] at h
      cases h
      exact hp
    | false =>
      rw [makeDirectory_of_not_holds hd hp] at h
      exact FileTree.holds_ensureDirectory (ne_empty_of_directory? hd) h

end LogSettings

namespace Settings

theorem validate_eq_ok_iff {s s' : Settings} : s.validate t = (u,.ok s') ↔
    ∃ log display, s.log.normalized = .ok log ∧ log.makeDirectory t = (u,none) ∧
      s.display.normalized = .ok display ∧ s.timings.fault? = none ∧
      { s with log, display } = s' := by
  unfold validate
  cases s.log.normalized with
  | error fault => simp
  | ok log =>
    rcases hm : log.makeDirectory t with ⟨v,_ | e⟩
    · cases s.display.normalized with
      | error fault => simp [hm]
      | ok display => cases s.timings.fault? <;> simp [hm]
    · simp [hm]

theorem validate_validate {s s' : Settings} (h : s.validate t = (u,.ok s')) :
    s'.validate u = (u,.ok s') := by
  obtain ⟨log,display,hlog,hmade,hdisplay,htimings,rfl⟩ := validate_eq_ok_iff.1 h
  exact validate_eq_ok_iff.2 ⟨log,display,LogSettings.normalized_normalized hlog,
    LogSettings.makeDirectory_again hmade,DisplaySettings.normalized_normalized hdisplay,htimings,
    rfl⟩

end Settings

def DisplaySettings.strideIn (s : DisplaySettings) (format : PixelFormat) : Nat :=
  s.stride.getD (format.strideFor s.width)

/-- The file can be opened and so much of it can be mapped. -/
def DeviceFile.Maps (file : DeviceFile) (size : Nat) : Prop :=
  ∃ bytes maps, file = .opens bytes maps ∧ maps size = true

namespace Panel

/-- The screen is the one that the settings describe. -/
structure Shows (p : Panel) (s : DisplaySettings) (f : PixelFormat) : Prop where
  width : p.raster.width = s.width
  height : p.raster.height = s.height
  format : p.raster.format = f
  stride : p.raster.stride = s.strideIn f
  line_le : s.width * f.bytesPerPixel ≤ p.raster.stride

@[simp] theorem size_mapped (bytes : Array UInt8) (size : Nat) :
    (mapped bytes size).size = size := by
  simp only [mapped, Array.size_append, Array.size_extract, Array.size_replicate]
  omega

theorem line_le_strideIn {s : DisplaySettings} {f : PixelFormat}
    (h : ∀ stride, s.stride = some stride → s.width * f.bytesPerPixel ≤ stride) :
    s.width * f.bytesPerPixel ≤ s.strideIn f := by
  unfold DisplaySettings.strideIn
  cases hs : s.stride with
  | some stride => exact h stride hs
  | none =>
    rw [Option.getD_none, PixelFormat.strideFor]
    omega

section

variable {s : DisplaySettings} {f : PixelFormat} (hn : s.normalized = .ok s)
  (hf : PixelFormat.ofName? s.pixelFormat = some f) (hw : s.width < Raster.extentLimit)
  (hh : s.height < Raster.extentLimit)
include hn hf hw hh

theorem ofMemory_accepted (hsize : s.strideIn f * s.height < Raster.sizeLimit)
    (bytes : Array UInt8) : ∃ r, Raster.ofMemory 0 .anonymous
      (mapped bytes (s.strideIn f * s.height)) s.width s.height (s.strideIn f) f = .ok r ∧
        (inert r).Shows s f := by
  obtain ⟨hw0,hh0,g,hg,hstride,-⟩ := DisplaySettings.normalized_eq_ok_iff.1 hn
  obtain rfl := Option.some.inj (hf.symm.trans hg)
  have hline := line_le_strideIn hstride
  have hextent : ¬ (s.width = 0 ∨ s.height = 0 ∨ Raster.extentLimit ≤ s.width ∨
      Raster.extentLimit ≤ s.height) := by omega
  have hfits : ¬ (s.strideIn f < s.width * f.bytesPerPixel ∨
      (mapped bytes (s.strideIn f * s.height)).size <
        max (s.strideIn f) (s.width * f.bytesPerPixel) * s.height) := by
    rw [size_mapped, Nat.max_eq_left hline]
    omega
  have hsize' : ¬ Raster.sizeLimit ≤ max (s.strideIn f) (s.width * f.bytesPerPixel) * s.height := by
    rw [Nat.max_eq_left hline]
    omega
  simp only [Raster.ofMemory, dif_neg (PixelFormat.ofName?_spec hf).1, dif_neg hextent,
    dif_neg hsize', dif_neg hfits]
  exact ⟨_,rfl,rfl,rfl,rfl,rfl,hline⟩

theorem openDevice_accepted (hsize : s.strideIn f * s.height < Raster.sizeLimit)
    (file : DeviceFile) :
    (file.Maps (s.strideIn f * s.height) → ∃ p, openDevice s file = .ok p ∧ p.Shows s f) ∧
      ∀ e, openDevice s file = .error e → ∃ missing, e = .unavailable missing := by
  have hextent : ¬ (Raster.extentLimit ≤ s.width ∨ Raster.extentLimit ≤ s.height) := by omega
  cases file with
  | missing =>
    refine ⟨fun h => ?_,fun e he => ?_⟩
    · obtain ⟨bytes,maps,hb,-⟩ := h
      cases hb
    · simp only [openDevice, hf] at he
      exact ⟨true,(Except.error.inj he).symm⟩
  | directory =>
    refine ⟨fun h => ?_,fun e he => ?_⟩
    · obtain ⟨bytes,maps,hb,-⟩ := h
      cases hb
    · simp only [openDevice, hf] at he
      exact ⟨false,(Except.error.inj he).symm⟩
  | opens bytes maps =>
    obtain ⟨r,hr,hshows⟩ := ofMemory_accepted hn hf hw hh hsize bytes
    have hopen : openDevice s (.opens bytes maps) =
        if !maps (s.strideIn f * s.height) then .error (.unavailable false)
        else .ok (inert r) := by
      have hstride : s.stride.getD (f.strideFor s.width) = s.strideIn f := rfl
      simp only [openDevice, hf, hstride, if_neg (Nat.not_le.2 hsize), if_neg hextent, hr]
    rw [hopen]
    refine ⟨fun h => ?_,fun e he => ?_⟩
    · obtain ⟨bytes',maps',hfile,hmaps⟩ := h
      cases hfile
      rw [hmaps]
      exact ⟨_,rfl,hshows⟩
    · split at he
      · exact ⟨false,(Except.error.inj he).symm⟩
      · cases he

end

end Panel

/-- Settings that are accepted pass the validation again as they are, and their screen can be
opened: the format they ask for is there, the image has their extent and format and room for each
line, and only the system can refuse the device file. -/
theorem accepted_opens {s s' : Settings} (h : s.validate t = (u,.ok s')) :
    s'.validate u = (u,.ok s') ∧
      ∃ f, PixelFormat.ofName? s.display.pixelFormat = some f ∧
        s'.display = { s.display with pixelFormat := f.name } ∧
        (s.display.width < Raster.extentLimit → s.display.height < Raster.extentLimit →
          s'.display.strideIn f * s'.display.height < Raster.sizeLimit → ∀ file : DeviceFile,
            (file.Maps (s'.display.strideIn f * s'.display.height) →
              ∃ p, Panel.openDevice s'.display file = .ok p ∧ p.Shows s'.display f) ∧
            ∀ e, Panel.openDevice s'.display file = .error e →
              ∃ missing, e = .unavailable missing) := by
  obtain ⟨log,display,-,-,hdisplay,-,rfl⟩ := Settings.validate_eq_ok_iff.1 h
  have hagain := DisplaySettings.normalized_normalized hdisplay
  obtain ⟨-,-,f,hf,-,rfl⟩ := DisplaySettings.normalized_eq_ok_iff.1 hdisplay
  have hname := PixelFormat.ofName?_name (PixelFormat.ofName?_spec hf).1
  refine ⟨Settings.validate_validate h,f,hf,rfl,?_⟩
  intro hw hh hsize file
  exact Panel.openDevice_accepted hagain hname hw hh hsize file

/-- Names are written in any case, the directory of the log file is not there yet. -/
theorem accepted_opens_upper_case :
    let t := FileTree.ofList [] ["sealed"] []
    let s : Settings :=
      { log := { level := "INFO", file := some "/logs/ink" }
        display := { width := 3, height := 2, pixelFormat := "RGB16" } }
    let s' : Settings :=
      { log := { level := "info", file := some "/logs/ink" }
        display := { width := 3, height := 2, pixelFormat := "rgb16" } }
    let u := (s.validate t).1
    s.validate t = (u,.ok s') ∧ t.holds "/logs" = false ∧ u.holds "/logs" = true ∧
      s'.validate u = (u,.ok s') ∧
        ∃ p, Panel.openDevice s'.display (.plain #[1,2,3]) = .ok p ∧
          p.Shows s'.display .rgb16 := by
  intro t s s' u
  have hs : (s.validate t).2 = .ok s' := by decide +kernel
  have h : s.validate t = (u,.ok s') := Prod.ext rfl hs
  obtain ⟨hagain,f,hf,-,hopens⟩ := accepted_opens h
  obtain rfl : f = .rgb16 := by
    have hrgb : PixelFormat.ofName? "RGB16" = some .rgb16 := by decide
    exact Option.some.inj (hf.symm.trans hrgb)
  have hmaps : (DeviceFile.plain #[1,2,3]).Maps
      (s'.display.strideIn .rgb16 * s'.display.height) := ⟨_,_,rfl,by decide⟩
  exact ⟨h,by decide +kernel,by decide +kernel,hagain,
    (hopens (by decide) (by decide) (by decide) _).1 hmaps⟩

end InkCompositor
