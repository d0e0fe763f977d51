import BoardGpio.Proofs.Json.Laws
import BoardGpio.Settings.Document

/-!
# Settings written and read again

The document that settings are written as stands for what it keeps of them (`denotes_settings`): all
of it but for the durations, of which it keeps the whole milliseconds modulo `2 ^ 64`
(`Duration.stored`). So whichever library writes and reads, as long as it reads what was written,
settings come back as what was kept, or are refused for a poll interval of zero
(`Settings.read_write`). Settings whose durations are whole milliseconds that fit are read back as
they were, and no text is read as any others (`reread`). Other settings may be refused when they are
read again: a poll interval below one millisecond is written as zero (`reload`, `unsaved`).
-/

set_option autoImplicit false

namespace BoardGpio

open Json

/-! ## Durations in documents -/

namespace Duration

/-- What a document keeps of a duration. -/
def stored (d : Duration) : Duration := ofMillis d.documentMillis

/-- Durations less than a millisecond apart. -/
def Near (d e : Duration) : Prop :=
  d.nanos < e.nanos + 1000000 ∧ e.nanos < d.nanos + 1000000

theorem documentMillis_lt (d : Duration) : d.documentMillis < UInt64.size :=
  Nat.mod_lt _ (by decide)

theorem documentMillis_ofMillis {ms : Nat} (hms : ms < UInt64.size) :
    (ofMillis ms).documentMillis = ms := by
  rw [documentMillis, millis_ofMillis]
  exact Nat.mod_eq_of_lt hms

theorem stored_ofMillis {ms : Nat} (hms : ms < UInt64.size) :
    (ofMillis ms).stored = ofMillis ms := by
  rw [stored, documentMillis_ofMillis hms]

/-- A document keeps a duration to the millisecond exactly if its milliseconds fit. -/
theorem near_stored_iff (d : Duration) : d.stored.Near d ↔ d.millis < UInt64.size := by
  simp only [Near, stored, ofMillis, documentMillis, millis, millisBound, UInt64.size]
  omega

theorem documentMillis_eq_zero_iff (d : Duration) :
    d.documentMillis = 0 ↔ UInt64.size ∣ d.millis :=
  (Nat.dvd_iff_mod_eq_zero).symm

end Duration

/-! ## What is written -/

theorem denotes_numbering (n : Numbering) :
    (Document.format : Format Numbering).Denotes (Document.toDoc n) n :=
  ⟨rfl, Numbering.ofWord?_word n⟩

theorem denotes_handleSettings (s : HandleSettings) :
    (Document.format : Format HandleSettings).Denotes (Document.toDoc s) s := by
  have hfill : HandleDraft.fields.Fill
      [("numbering", Document.toDoc s.numbering), ("release_on_close", .boolean s.releaseOnClose),
        ("mem_device", .text s.memDevice)]
      {} ⟨some s.numbering, some s.releaseOnClose, some s.memDevice⟩ := by
    refine Fields.fill_field rfl (denotes_numbering s.numbering) ?_
    refine Fields.fill_field (v := s.releaseOnClose) rfl rfl ?_
    refine Fields.fill_field (v := s.memDevice) rfl rfl ?_
    exact Fields.fill_nil _
  exact ⟨_, _, rfl, by decide, hfill, rfl⟩

theorem denotes_millis (d : Duration) :
    millisFormat.Denotes (.number d.documentMillis) d.stored :=
  ⟨d.documentMillis, ⟨rfl, d.documentMillis_lt⟩, rfl⟩

theorem denotes_debounce (debounce : Option Duration) :
    (Format.optional millisFormat).Denotes
      (docOfOption (debounce.map fun d => .number d.documentMillis))
      (debounce.map Duration.stored) := by
  cases debounce with
  | none => exact rfl
  | some d => exact ⟨denotes_millis d, Doc.noConfusion⟩

namespace InputSettings

/-- What a document keeps of input settings. -/
def stored (s : InputSettings) : InputSettings where
  pollInterval := s.pollInterval.stored
  debounce := s.debounce.map Duration.stored

end InputSettings

theorem denotes_inputSettings (s : InputSettings) :
    (Document.format : Format InputSettings).Denotes (Document.toDoc s) s.stored := by
  have hfill : InputDraft.fields.Fill
      [("poll_interval_ms", .number s.pollInterval.documentMillis),
        ("debounce_ms", docOfOption (s.debounce.map fun d => .number d.documentMillis))]
      {} ⟨some s.pollInterval.stored, some (s.debounce.map Duration.stored)⟩ := by
    refine Fields.fill_field rfl (denotes_millis s.pollInterval) ?_
    refine Fields.fill_field rfl (denotes_debounce s.debounce) ?_
    exact Fields.fill_nil _
  exact ⟨_, _, rfl, by decide, hfill, rfl⟩

namespace Settings

/-- What a document keeps of settings. -/
def stored (s : Settings) : Settings where
  handle := s.handle
  input := s.input.stored

end Settings

theorem denotes_settings (s : Settings) :
    (Document.format : Format Settings).Denotes (Document.toDoc s) s.stored := by
  have hfill : SettingsDraft.fields.Fill
      [("gpio", Document.toDoc s.handle), ("din", Document.toDoc s.input)]
      {} ⟨some s.handle, some s.input.stored⟩ := by
    refine Fields.fill_field rfl (denotes_handleSettings s.handle) ?_
    refine Fields.fill_field rfl (denotes_inputSettings s.input) ?_
    exact Fields.fill_nil _
  exact ⟨_, _, rfl, by decide, hfill, rfl⟩

namespace Document

variable {α : Type} [Document α] {lib : Library}

theorem read_write (hlib : lib.ReadsWritten) {a b : α}
    (h : (format : Format α).Denotes (toDoc a) b) : read lib (write lib a) = .ok b := by
  rw [read, write, hlib format (toDoc a) b h]

theorem gives_of_read (hlib : lib.GivesDescribed) {t : String} {a : α}
    (h : read lib t = .ok a) : (format : Format α).Gives a := by
  unfold read at h
  split at h
  · rename_i b hread
    cases h
    exact hlib format t _ hread
  · cases h

end Document

namespace Settings

theorem read_of_document {lib : Library} {t : String} {s : Settings}
    (h : Document.read lib t = .ok s) :
    read lib t = if s.input.pollInterval.nanos = 0
      then .error (.config .zeroPollInterval) else .ok s := by
  unfold read
  rw [h]
  show (s.input.validate >>= fun _ => pure s) = _
  by_cases hzero : s.input.pollInterval.nanos = 0
  · rw [InputSettings.validate, if_pos (by simp [Duration.isZero, hzero]), if_pos hzero]
    rfl
  · rw [InputSettings.validate_eq_ok_iff.mpr hzero, if_neg hzero]
    rfl

/-- Written settings are read as what a document keeps of them, unless that is a poll interval of
zero. -/
theorem read_write {lib : Library} (hlib : lib.ReadsWritten) (s : Settings) :
    read lib (s.write lib) = if s.input.pollInterval.documentMillis = 0
      then .error (.config .zeroPollInterval) else .ok s.stored := by
  have hread : Document.read lib (s.write lib) = .ok s.stored :=
    Document.read_write hlib (denotes_settings s)
  have hzero : s.stored.input.pollInterval.nanos = 0 ↔
      s.input.pollInterval.documentMillis = 0 := by
    show s.input.pollInterval.documentMillis * 1000000 = 0 ↔ _
    omega
  rw [read_of_document hread]
  simp only [hzero]

end Settings

/-! ## What can be read -/

/-- Durations that a document can hold. -/
def Duration.Storable (d : Duration) : Prop :=
  ∃ ms, ms < UInt64.size ∧ d = .ofMillis ms

/-- Input settings that a document can hold. -/
structure InputSettings.Storable (s : InputSettings) : Prop where
  pollInterval : s.pollInterval.Storable
  debounce : ∀ d ∈ s.debounce, d.Storable

/-- Drafts of such settings. -/
structure InputDraft.Storable (draft : InputDraft) : Prop where
  pollInterval : ∀ d ∈ draft.pollInterval, d.Storable
  debounce : ∀ debounce ∈ draft.debounce, ∀ d ∈ debounce, d.Storable

theorem InputSettings.storable_default : InputSettings.Storable {} := by
  constructor
  · exact ⟨20, by decide, rfl⟩
  · intro d hd
    cases hd

theorem InputDraft.Storable.getD {draft : InputDraft} (h : draft.Storable) {s : InputSettings}
    (hs : s.Storable) :
    InputSettings.Storable
      ⟨draft.pollInterval.getD s.pollInterval, draft.debounce.getD s.debounce⟩ := by
  obtain ⟨hpoll, hdebounce⟩ := h
  constructor
  · cases hcase : draft.pollInterval with
    | none => exact hs.pollInterval
    | some d => exact hpoll d hcase
  · cases hcase : draft.debounce with
    | none => exact hs.debounce
    | some debounce => exact hdebounce debounce hcase

theorem Duration.storable_of_gives {d : Duration} (h : millisFormat.Gives d) : d.Storable := by
  obtain ⟨ms, hms, rfl⟩ := h
  exact ⟨ms, hms, rfl⟩

theorem InputSettings.storable_of_gives {s : InputSettings}
    (h : (Document.format : Format InputSettings).Gives s) : s.Storable := by
  have hempty : InputDraft.Storable {} := by
    constructor <;> intro d hd <;> cases hd
  have hfields : ∀ step, InputDraft.fields.Sets step → ∀ draft : InputDraft, draft.Storable →
      (step draft).Storable := by
    rintro step (⟨d, hd, rfl⟩ | ⟨debounce, hdebounce, rfl⟩ | hnone) draft hdraft
    · refine ⟨?_, hdraft.debounce⟩
      intro e he
      cases he
      exact Duration.storable_of_gives hd
    · refine ⟨hdraft.pollInterval, ?_⟩
      intro e he
      cases he
      exact fun d hd => Duration.storable_of_gives (hdebounce d hd)
    · exact hnone.elim
  obtain ⟨draft, hdraft, hfinish⟩ := h.draft hempty hfields
  cases hfinish
  exact hdraft.getD InputSettings.storable_default

/-- Whatever is read as settings has durations that a document can hold. -/
theorem Settings.storable_of_gives {s : Settings}
    (h : (Document.format : Format Settings).Gives s) : s.input.Storable := by
  have hempty : ∀ i ∈ (SettingsDraft.mk none none).input, i.Storable := by
    intro i hi
    cases hi
  have hfields : ∀ step, SettingsDraft.fields.Sets step → ∀ draft : SettingsDraft,
      (∀ i ∈ draft.input, i.Storable) → ∀ i ∈ (step draft).input, i.Storable := by
    rintro step (⟨handle, -, rfl⟩ | ⟨input, hinput, rfl⟩ | hnone) draft hdraft i hi
    · exact hdraft i hi
    · cases hi
      exact InputSettings.storable_of_gives hinput
    · exact hnone.elim
  obtain ⟨⟨handle, input⟩, hdraft, hfinish⟩ := h.draft (I := fun draft : SettingsDraft =>
    ∀ i ∈ draft.input, i.Storable) hempty hfields
  cases hfinish
  cases input with
  | none => exact InputSettings.storable_default
  | some i => exact hdraft i rfl

namespace Settings

variable {lib : Library}

theorem storable_of_read (hlib : lib.GivesDescribed) {t : String} {s : Settings}
    (h : read lib t = .ok s) : s.input.Storable ∧ s.input.pollInterval.nanos ≠ 0 := by
  cases hread : Document.read (α := Settings) lib t with
  | error e =>
    unfold read at h
    rw [hread] at h
    cases h
  | ok given =>
    rw [read_of_document hread] at h
    by_cases hzero : given.input.pollInterval.nanos = 0
    · rw [if_pos hzero] at h
      cases h
    · rw [if_neg hzero] at h
      cases h
      exact ⟨storable_of_gives (Document.gives_of_read hlib hread), hzero⟩

/-- Settings whose durations are whole milliseconds that a document can hold, and whose poll
interval is not zero. -/
structure Exact (s : Settings) : Prop where
  pollInterval : ∃ ms, 1 ≤ ms ∧ ms < UInt64.size ∧ s.input.pollInterval = .ofMillis ms
  debounce : ∀ d ∈ s.input.debounce, ∃ ms, ms < UInt64.size ∧ d = .ofMillis ms

theorem exact_of_read (hlib : lib.GivesDescribed) {t : String} {s : Settings}
    (h : read lib t = .ok s) : s.Exact := by
  obtain ⟨hstorable, hnonzero⟩ := storable_of_read hlib h
  obtain ⟨ms, hms, hpoll⟩ := hstorable.pollInterval
  refine ⟨⟨ms, ?_, hms, hpoll⟩, hstorable.debounce⟩
  rw [hpoll] at hnonzero
  simp only [Duration.ofMillis] at hnonzero
  omega

theorem Exact.stored {s : Settings} (h : s.Exact) : s.stored = s := by
  obtain ⟨handle, pollInterval, debounce⟩ := s
  obtain ⟨⟨ms, -, hms, hpoll⟩, hdebounce⟩ := h
  have hpoll : pollInterval.stored = pollInterval := by
    rw [show pollInterval = .ofMillis ms from hpoll]
    exact Duration.stored_ofMillis hms
  have hdebounce : debounce.map Duration.stored = debounce := by
    cases debounce with
    | none => rfl
    | some d =>
      obtain ⟨ms, hms, hd⟩ := hdebounce d rfl
      rw [hd, Option.map_some, Duration.stored_ofMillis hms]
  rw [Settings.stored, InputSettings.stored]
  simp only
  rw [hpoll, hdebounce]

theorem Exact.read_write (hlib : lib.ReadsWritten) {s : Settings} (h : s.Exact) :
    read lib (s.write lib) = .ok s := by
  have hstored := h.stored
  obtain ⟨ms, hpos, hms, hpoll⟩ := h.pollInterval
  rw [Settings.read_write hlib, hstored, hpoll, Duration.documentMillis_ofMillis hms,
    if_neg (by omega)]

/-- Through any library that reads what was written and gives what formats describe, settings with
durations that a document can hold are read back as they were written, no text is read as any
others, and so writing what was read and reading it again changes nothing. -/
theorem reread (hwritten : lib.ReadsWritten) (hdescribed : lib.GivesDescribed) :
    (∀ s : Settings, s.Exact → read lib (s.write lib) = .ok s) ∧
      (∀ (t : String) (s : Settings), read lib t = .ok s → s.Exact) ∧
      ∀ (t : String) (s : Settings), read lib t = .ok s →
        read lib (s.write lib) = read lib t := by
  refine ⟨fun s hs => hs.read_write hwritten, fun t s hs => exact_of_read hdescribed hs, ?_⟩
  intro t s hread
  have hexact : s.Exact := exact_of_read hdescribed hread
  rw [hexact.read_write hwritten, hread]

/-- Physical numbering, a device whose name needs every kind of escape, the longest poll interval
that fits and a debounce of no length. -/
def escaped : Settings where
  handle := ⟨.physical, false, "/dev/\x07\"m\\e\nm\x7f é😀"⟩
  input := ⟨.ofMillis (UInt64.size - 1), some (.ofMillis 0)⟩

/-- Settings as an array, with a debounce and all else left out. -/
def brief : Settings where
  handle := ⟨.mcu, true, "/dev/mem"⟩
  input := ⟨.ofMillis 20, some (.ofMillis 7)⟩

theorem reread_escaped :
    Library.stream.ReadsWritten ∧ Library.stream.GivesDescribed ∧
      (escaped.Exact ∧ ofText escaped.text = .ok escaped) ∧
      ofText " [[\"mcu\"], \x7b\"debounce_ms\":7\x7d]" = .ok brief ∧ brief.Exact ∧
        ofText brief.text = ofText " [[\"mcu\"], \x7b\"debounce_ms\":7\x7d]" := by
  have hexact : escaped.Exact := by
    refine ⟨⟨UInt64.size - 1, by decide, by decide, rfl⟩, ?_⟩
    intro d hd
    exact ⟨0, by decide, (Option.some.inj hd).symm⟩
  have hstream : Library.stream.ReadsWritten := Library.readsWritten_stream
  have hgives : Library.stream.GivesDescribed := Library.givesDescribed_stream
  have hbrief : ofText " [[\"mcu\"], \x7b\"debounce_ms\":7\x7d]" = .ok brief := by decide +kernel
  obtain ⟨hback, hform, hagain⟩ := reread hstream hgives
  exact ⟨hstream, hgives, ⟨hexact, hback escaped hexact⟩, hbrief, hform _ brief hbrief,
    hagain _ brief hbrief⟩

/-! ## What is lost -/

/-- Any valid settings, written and read again by a library that reads what was written: they are
refused exactly if the milliseconds of the poll interval are a multiple of `2 ^ 64`, and otherwise
the handle's settings come back as they were, and each duration to the millisecond exactly if its
milliseconds are below `2 ^ 64`. -/
theorem reload (hlib : lib.ReadsWritten) (s : Settings) :
    (read lib (s.write lib) = .error (.config .zeroPollInterval) ↔
        UInt64.size ∣ s.input.pollInterval.millis) ∧
      (¬ UInt64.size ∣ s.input.pollInterval.millis → ∃ r,
        read lib (s.write lib) = .ok r ∧ r.handle = s.handle ∧
          (r.input.pollInterval.Near s.input.pollInterval ↔
            s.input.pollInterval.millis < UInt64.size) ∧
          (r.input.debounce = none ↔ s.input.debounce = none) ∧
          ∀ d ∈ s.input.debounce, ∃ e ∈ r.input.debounce, (e.Near d ↔ d.millis < UInt64.size)) := by
  have htext := read_write hlib s
  have hzero := s.input.pollInterval.documentMillis_eq_zero_iff
  by_cases h : UInt64.size ∣ s.input.pollInterval.millis
  · rw [if_pos (hzero.mpr h)] at htext
    exact ⟨by simp [htext, h], fun hnot => absurd h hnot⟩
  · rw [if_neg (fun hdocument => h (hzero.mp hdocument))] at htext
    refine ⟨by simp [htext, h], fun _ => ⟨s.stored, htext, rfl, ?_, ?_, ?_⟩⟩
    · exact s.input.pollInterval.near_stored_iff
    · simp [stored, InputSettings.stored]
    · intro d hd
      refine ⟨d.stored, ?_, d.near_stored_iff⟩
      exact Option.mem_map_of_mem Duration.stored hd

/-- A poll interval just below two milliseconds is read back as one millisecond, and a debounce of
`2 ^ 64` milliseconds as none at all. -/
theorem reload_rounded :
    let s : Settings := { input := ⟨.ofParts 0 1999999, some (.ofMillis UInt64.size)⟩ }
    Library.stream.ReadsWritten ∧
      ¬ UInt64.size ∣ s.input.pollInterval.millis ∧ ∃ r, ofText s.text = .ok r ∧
      r.input.pollInterval.Near s.input.pollInterval ∧
        ∃ e ∈ r.input.debounce, ¬ e.Near (.ofMillis UInt64.size) := by
  intro s
  have hpoll : s.input.pollInterval.millis = 1 := by decide
  have hdvd : ¬ UInt64.size ∣ s.input.pollInterval.millis := by
    rw [hpoll]
    decide
  have hstream : Library.stream.ReadsWritten := Library.readsWritten_stream
  obtain ⟨r, hread, -, hnear, -, hdebounce⟩ := (reload hstream s).2 hdvd
  obtain ⟨e, he, heNear⟩ := hdebounce _ rfl
  refine ⟨hstream, hdvd, r, hread, hnear.mpr (by rw [hpoll]; decide), e, he, ?_⟩
  rw [heNear, Duration.millis_ofMillis]
  exact Nat.lt_irrefl _

/-- A poll interval of one nanosecond is valid, but is written as a document that is refused. -/
theorem unsaved :
    let s : Settings := { input := { pollInterval := .ofParts 0 1 } }
    s.input.validate = .ok () ∧ ofText s.text = .error (.config .zeroPollInterval) := by
  intro s
  refine ⟨by decide, ?_⟩
  have hread := read_write Library.readsWritten_stream s
  rw [if_pos (by decide)] at hread
  exact hread

end Settings

end BoardGpio
