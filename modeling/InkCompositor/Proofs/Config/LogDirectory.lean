import Mathlib
import InkCompositor.Config.Loading
import InkCompositor.Proofs.Config.Acceptance

/-!
# The directory of the log file

Where nothing is in its place the directory of the log file is made, or the settings
are rejected. What is there already is not looked at: it stays as it is, and settings
are accepted with a file in place of the directory as they are with a directory.
-/

set_option autoImplicit false

namespace InkCompositor

variable {t u : FileTree} {p : String}

namespace LogSettings

variable {s s' : LogSettings}

theorem directory?_normalized (h : s.normalized = .ok s') : s'.directory? = s.directory? := by
  obtain ⟨-,-,rfl⟩ := normalized_eq_ok_iff.1 h
  rfl

theorem eq_notMade {e : DirectoryError} (h : s.makeDirectory t = (u,some e)) :
    ∃ p, s.directory? = some p ∧ t.holds p = false ∧
      (FileTree.makeAll (Path.ancestors p) t).2 = false ∧ e = .notMade p := by
  cases hd : s.directory? with
  | none =>
    rw [makeDirectory, hd] at h
    cases h
  | some p =>
    cases hp : t.holds p with
    | true =>
      rw [makeDirectory_of_holds hd hp] at h
      cases h
    | false =>
      rw [makeDirectory_of_not_holds hd hp, FileTree.ensureDirectory, if_neg (by simp [hp])] at h
      refine ⟨p,rfl,hp,?_⟩
      rcases hm : FileTree.makeAll (Path.ancestors p) t with ⟨v,_ | _⟩
      · rw [hm] at h
        cases h
        exact ⟨rfl,rfl⟩
      · rw [hm] at h
        cases h

end LogSettings

namespace Settings

inductive Source where
  | text (content : String)
  | file (path : String)

namespace Source

/-- Loads settings, with texts read by `parse?`. -/
def load (parse? : String → Option Toml.Entries) (t : FileTree) :
    Source → FileTree × Except ConfigError Settings
  | .text content => fromText t content parse?
  | .file path => Settings.load t path parse?

/-- The settings that are described there, valid or not. A file that is missing describes the
defaults. -/
def described? (parse? : String → Option Toml.Entries) (t : FileTree) : Source → Option Settings
  | .text content => ofText? parse? content
  | .file path =>
    match t.read path with
    | .error .missing => some {}
    | .error _ => none
    | .ok bytes => (String.fromUTF8? bytes).bind (ofText? parse?)

variable {parse? : String → Option Toml.Entries} {source : Source} {s s' : Settings}

theorem fromText_of_described {content : String} (h : ofText? parse? content = some s) :
    fromText t content parse? = s.validate t := by
  rw [fromText, h]

theorem fromText_of_not_described {content : String} (h : ofText? parse? content = none) :
    fromText t content parse? = (t,.error .malformed) := by
  rw [fromText, h]

theorem load_of_described (h : source.described? parse? t = some s) :
    source.load parse? t = s.validate t := by
  cases source with
  | text content => exact fromText_of_described h
  | file path =>
    simp only [described?] at h
    simp only [load, Settings.load]
    cases hr : t.read path with
    | error e =>
      rw [hr] at h
      cases e with
      | missing =>
        cases h
        rfl
      | _ => cases h
    | ok bytes =>
      rw [hr] at h
      obtain ⟨content,hc,hs⟩ := Option.bind_eq_some_iff.1 h
      simp only [hc]
      exact fromText_of_described hs

theorem load_of_not_described (h : source.described? parse? t = none) :
    ∃ e, source.load parse? t = (t,.error e) ∧ ∀ d, e ≠ .directory d := by
  cases source with
  | text content => exact ⟨.malformed,fromText_of_not_described h,by simp⟩
  | file path =>
    simp only [described?] at h
    simp only [load, Settings.load]
    cases hr : t.read path with
    | error e =>
      rw [hr] at h
      cases e with
      | missing => cases h
      | _ => exact ⟨.unreadable path,rfl,by simp⟩
    | ok bytes =>
      rw [hr] at h
      cases hc : String.fromUTF8? bytes with
      | none => exact ⟨.unreadable path,by simp only [hc],by simp⟩
      | some content =>
        simp only [hc, Option.bind_some] at h
        exact ⟨.malformed,by simpa only [hc] using fromText_of_not_described h,by simp⟩

theorem described_of_load (h : source.load parse? t = (u,.ok s')) :
    ∃ s, source.described? parse? t = some s ∧ s.validate t = (u,.ok s') := by
  cases hs : source.described? parse? t with
  | none =>
    obtain ⟨e,he,-⟩ := load_of_not_described hs
    rw [he] at h
    cases h
  | some s => exact ⟨s,rfl,load_of_described hs ▸ h⟩

end Source

theorem validate_eq_directory {s : Settings} {e : DirectoryError}
    (h : s.validate t = (u,.error (.directory e))) :
    ∃ p, s.log.directory? = some p ∧ t.holds p = false ∧
      (FileTree.makeAll (Path.ancestors p) t).2 = false ∧ e = .notMade p := by
  unfold validate at h
  cases hlog : s.log.normalized with
  | error fault => simp [hlog] at h
  | ok log =>
    rw [← LogSettings.directory?_normalized hlog]
    rcases hm : log.makeDirectory t with ⟨v,_ | d⟩
    · simp only [hlog, hm, Prod.mk.injEq] at h
      obtain ⟨-,h⟩ := h
      split at h <;> cases h
    · simp only [hlog, hm, Prod.mk.injEq, Except.error.injEq, ConfigError.directory.injEq] at h
      obtain ⟨-,rfl⟩ := h
      exact LogSettings.eq_notMade hm

structure Prepared (t u : FileTree) (p : String) : Prop where
  made : t.holds p = false → u.isDirectory p = true
  kept : t.holds p = true → u = t

theorem prepared_of_validate {s s' : Settings} (h : s.validate t = (u,.ok s'))
    (hp : s'.log.directory? = some p) : Prepared t u p := by
  obtain ⟨log,display,-,hmade,-,-,rfl⟩ := validate_eq_ok_iff.1 h
  constructor
  · intro hmissing
    rw [LogSettings.makeDirectory_of_not_holds hp hmissing] at hmade
    exact FileTree.isDirectory_ensureDirectory (LogSettings.ne_empty_of_directory? hp) hmade
  · intro hthere
    rw [LogSettings.makeDirectory_of_holds hp hthere] at hmade
    exact (Prod.mk.inj hmade).1.symm

theorem Prepared.isDirectory_iff (h : Prepared t u p) :
    u.isDirectory p = true ↔ t.isDirectory p = true ∨ t.holds p = false := by
  cases hp : t.holds p with
  | false => simp [h.made hp]
  | true => simp [h.kept hp]

/-- Settings that are accepted have a directory for their log file if there was one or if there
was nothing, and then it has been made. Something else in its place is no reason to reject them,
and it stays. For the sake of the directory settings are rejected only if it was missing and
could not be made. -/
theorem log_directory_unless_occupied (parse? : String → Option Toml.Entries) (t : FileTree)
    (source : Source) :
    (∀ u s p, source.load parse? t = (u,.ok s) → s.log.directory? = some p →
      (u.isDirectory p = true ↔ t.isDirectory p = true ∨ t.holds p = false) ∧
        (t.holds p = true → u = t)) ∧
    ∀ u e, source.load parse? t = (u,.error (.directory e)) →
      ∃ s p, source.described? parse? t = some s ∧ s.log.directory? = some p ∧ t.holds p = false ∧
        (FileTree.makeAll (Path.ancestors p) t).2 = false ∧ e = .notMade p := by
  constructor
  · intro u s p h hp
    obtain ⟨s₀,-,hs⟩ := Source.described_of_load h
    have hprepared := prepared_of_validate hs hp
    exact ⟨hprepared.isDirectory_iff,hprepared.kept⟩
  · intro u e h
    cases hs : source.described? parse? t with
    | none =>
      obtain ⟨e',he,hno⟩ := Source.load_of_not_described hs
      rw [he] at h
      exact absurd (Except.error.inj (Prod.mk.inj h).2) (hno e)
    | some s =>
      rw [Source.load_of_described hs] at h
      obtain ⟨p,hp⟩ := validate_eq_directory h
      exact ⟨s,p,rfl,hp⟩

/-- Two directories are missing, and only one of them can be made. -/
theorem log_directory_unless_occupied_missing :
    let t := FileTree.ofList [] ["sealed"] []
    let made := Source.text "[logging]\nfile_path = \"/logs/ink\"\n"
    let refused := Source.text "[logging]\nfile_path = \"/sealed/logs/ink\"\n"
    (made.load Toml.parse? t).2 = .ok { log := { file := some "/logs/ink" } } ∧
      (made.load Toml.parse? t).1.isDirectory "/logs" = true ∧
      (refused.load Toml.parse? t).2 = .error (.directory (.notMade "/sealed/logs")) ∧
      ∃ p, t.holds p = false ∧ DirectoryError.notMade "/sealed/logs" = .notMade p := by
  intro t made refused
  have hmade : (made.load Toml.parse? t).2 = .ok { log := { file := some "/logs/ink" } } := by
    decide +kernel
  have hrefused : (refused.load Toml.parse? t).2 =
      .error (.directory (.notMade "/sealed/logs")) := by
    decide +kernel
  have hthere := (log_directory_unless_occupied Toml.parse? t made).1 _ _ "/logs"
    (Prod.ext rfl hmade) (by decide)
  obtain ⟨s,p,-,-,hp,-,he⟩ :=
    (log_directory_unless_occupied Toml.parse? t refused).2 _ _ (Prod.ext rfl hrefused)
  exact ⟨hmade,hthere.1.2 (.inr (by decide)),hrefused,p,hp,he⟩

/-- It is not so that settings are only accepted with a directory for their log file, nor that
they are rejected with something else in its place. -/
theorem log_directory_occupied :
    let t := FileTree.ofList [] ["sealed"]
      [(["dev"], .directory), (["dev", "null"], .file .empty)]
    let source := Source.text "[logging]\nfile_path = \"/dev/null/y.log\""
    let s : Settings := { log := { file := some "/dev/null/y.log" } }
    (source.load Toml.parse? t).2 = .ok s ∧ s.log.directory? = some "/dev/null" ∧
      t.holds "/dev/null" = true ∧ t.isDirectory "/dev/null" = false ∧
      (source.load Toml.parse? t).1.isDirectory "/dev/null" = false ∧
      ¬ (∀ (t u : FileTree) (source : Source) (s : Settings) (p : String),
        source.load Toml.parse? t = (u,.ok s) → s.log.directory? = some p →
          u.isDirectory p = true) ∧
      ¬ (∀ (t : FileTree) (source : Source) (s : Settings) (p : String),
        source.described? Toml.parse? t = some s → s.log.directory? = some p → t.holds p = true →
          t.isDirectory p = false →
            (source.load Toml.parse? t).2 = .error (.directory (.occupied p))) := by
  intro t source s
  have haccepted : (source.load Toml.parse? t).2 = .ok s := by decide +kernel
  have hdescribed : source.described? Toml.parse? t = some s := by decide +kernel
  have hdirectory : s.log.directory? = some "/dev/null" := by decide
  have hthere : t.holds "/dev/null" = true := by decide
  have hno : t.isDirectory "/dev/null" = false := by decide
  have hstill : (source.load Toml.parse? t).1.isDirectory "/dev/null" = false := by decide +kernel
  refine ⟨haccepted,hdirectory,hthere,hno,hstill,?_,?_⟩
  · intro h
    have hyes : (source.load Toml.parse? t).1.isDirectory "/dev/null" = true :=
      h t _ source s "/dev/null" (Prod.ext rfl haccepted) hdirectory
    rw [hstill] at hyes
    cases hyes
  · intro h
    have hrejected := h t source s "/dev/null" hdescribed hdirectory hthere hno
    rw [haccepted] at hrejected
    cases hrejected

end Settings

end InkCompositor
