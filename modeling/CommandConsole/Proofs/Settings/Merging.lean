import CommandConsole.Proofs.Binary64.Nearest
import CommandConsole.Settings.Document

/-!
# Documents over the defaults

Each of the seven settings has a key, in the document or in one of its two sections, and a default.
A document whose known keys all have values of their kinds gives each setting by its key where the
key is present, and leaves it at its default otherwise, whatever the other keys are. There is one
such merge of the document with the defaults, and it is the answer if it is admissible.
-/

namespace CommandConsole

open Toml (Value Entries Origin)

/-- The settings that a document can give. -/
inductive Setting where
  | version
  | banner
  | historyCapacity
  | lineDelay
  | defaultPauseSeconds
  | commentPrefix
  | pauseDirective
  deriving DecidableEq, Repr

/-- What a setting can be. -/
inductive Content where
  | text (text : String)
  | natural (value : Nat)
  | number (value : Binary64)
  deriving DecidableEq, Repr

/-- The kinds of settings. -/
inductive Kind where
  | text
  | natural
  | number
  deriving DecidableEq, Repr

namespace Content

def kind : Content → Kind
  | text _ => .text
  | natural _ => .natural
  | number _ => .number

variable (content : Content)

theorem exists_text (h : content.kind = .text) : ∃ x, content = .text x := by
  cases content with
  | text x => exact ⟨x, rfl⟩
  | natural _ => cases h
  | number _ => cases h

theorem exists_natural (h : content.kind = .natural) : ∃ x, content = .natural x := by
  cases content with
  | text _ => cases h
  | natural x => exact ⟨x, rfl⟩
  | number _ => cases h

theorem exists_number (h : content.kind = .number) : ∃ x, content = .number x := by
  cases content with
  | text _ => cases h
  | natural _ => cases h
  | number x => exact ⟨x, rfl⟩

end Content

/-- What a value of a document means for a setting of a kind; other values are not admissible. -/
inductive Means : Kind → Value → Content → Prop
  | text (text : String) : Means .text (.string text) (.text text)
  | natural (n : Nat) : Means .natural (.integer n) (.natural n)
  | float (x : Binary64) : Means .number (.float x) (.number x)
  | integer (n : Int) : Means .number (.integer n) (.number (.ofInt n))

namespace Setting

/-- The section in which a setting stands. -/
def section? : Setting → Option String
  | version | banner => none
  | historyCapacity => some "history"
  | lineDelay | defaultPauseSeconds | commentPrefix | pauseDirective => some "script"

def key : Setting → String
  | version => "version"
  | banner => "banner"
  | historyCapacity => "max_entries"
  | lineDelay => "line_delay_ms"
  | defaultPauseSeconds => "default_pause_secs"
  | commentPrefix => "comment_prefix"
  | pauseDirective => "pause_directive"

/-- The place of a setting in its section, where that is written as an array. -/
def place : Setting → Nat
  | version | historyCapacity | lineDelay => 0
  | banner | defaultPauseSeconds => 1
  | commentPrefix => 2
  | pauseDirective => 3

def kind : Setting → Kind
  | version | banner | commentPrefix | pauseDirective => .text
  | historyCapacity | lineDelay => .natural
  | defaultPauseSeconds => .number

def default : Setting → Content
  | version => .text "1.0.0"
  | banner => .text "DevConsole"
  | historyCapacity => .natural 100
  | lineDelay => .natural 50
  | defaultPauseSeconds => .number (.ofNat 1)
  | commentPrefix => .text "//"
  | pauseDirective => .text "pause("

end Setting

/-- What a setting is. -/
def Settings.get (s : Settings) : Setting → Content
  | .version => .text s.version
  | .banner => .text s.banner
  | .historyCapacity => .natural s.historyCapacity
  | .lineDelay => .natural s.script.lineDelay
  | .defaultPauseSeconds => .number s.script.defaultPauseSeconds
  | .commentPrefix => .text s.script.commentPrefix
  | .pauseDirective => .text s.script.pauseDirective

/-- The defaults of the settings are the settings without a document. -/
theorem Setting.default_eq (setting : Setting) : setting.default = Settings.default.get setting := by
  cases setting <;>
    simp only [default, Settings.get, Settings.default, ScriptSettings.default,
      History.defaultCapacity]

/-- The value can stand for a section. -/
inductive IsSection : Value → Prop
  | table (origin : Origin) (entries : Entries) : IsSection (.table origin entries)
  | array (items : List Value) : IsSection (.array items)
  | tables (items : List Entries) : IsSection (.tables items)
  | dateTime : IsSection .dateTime

/-- A section holds a value for the setting with a key and a place. -/
inductive Holds (key : String) (place : Nat) : Value → Value → Prop
  | entry {origin : Origin} {entries : Entries} {value : Value} : entries.get? key = some value →
      Holds key place (.table origin entries) value
  | item {items : List Value} {value : Value} : items[place]? = some value →
      Holds key place (.array items) value
  | element {items : List Entries} {entries : Entries} : items[place]? = some entries →
      Holds key place (.tables items) (.table .defined entries)

theorem Holds.isSection {key : String} {place : Nat} {group value : Value}
    (h : Holds key place group value) : IsSection group := by
  cases h with
  | entry _ => exact .table _ _
  | item _ => exact .array _
  | element _ => exact .tables _

namespace Setting

/-- A document gives a value for a setting. -/
def Given (entries : Entries) (setting : Setting) (value : Value) : Prop :=
  match setting.section? with
  | none => entries.get? setting.key = some value
  | some name => ∃ group, entries.get? name = some group ∧
      Holds setting.key setting.place group value

/-- The content of a setting by a document: what its value means, or the default without one. -/
def Chosen (entries : Entries) (setting : Setting) (content : Content) : Prop :=
  (∃ value, setting.Given entries value ∧ Means setting.kind value content) ∨
    (∀ value, ¬ setting.Given entries value) ∧ content = setting.default

end Setting

/-- Every known key that is present has an admissible value. -/
structure KeysFit (entries : Entries) : Prop where
  sections : ∀ name ∈ ["history", "script"], ∀ value, entries.get? name = some value →
    IsSection value
  settings : ∀ (setting : Setting) (value : Value), setting.Given entries value →
    ∃ content, Means setting.kind value content

/-- The settings are those of a document over the defaults. -/
def Merges (entries : Entries) (s : Settings) : Prop :=
  ∀ setting : Setting, setting.Chosen entries (s.get setting)

/-- The conditions on settings. -/
structure Admissible (s : Settings) : Prop where
  historyCapacity : 1 ≤ s.historyCapacity
  /-- The default pause is a number, neither infinite nor below zero. -/
  defaultPause : ∃ v, s.script.defaultPauseSeconds.value? = some v ∧ 0 ≤ v
  commentPrefix : ∃ c ∈ s.script.commentPrefix.toList, Text.isBlankChar c = false
  pauseDirective : ∃ c ∈ s.script.pauseDirective.toList, Text.isBlankChar c = false

section Reading

variable {value : Value} {entries : Entries}

theorem text?_eq_some_iff {text : String} :
    value.text? = some text ↔ Means .text value (.text text) := by
  constructor
  · intro h
    cases value <;> simp [Value.text?] at h
    exact h ▸ .text _
  · rintro ⟨⟩
    rfl

theorem natural?_eq_some_iff {n : Nat} :
    value.natural? = some n ↔ Means .natural value (.natural n) := by
  constructor
  · intro h
    cases value <;> simp [Value.natural?] at h
    next value =>
    obtain ⟨hnonneg, rfl⟩ := h
    have hmeans := Means.natural value.toNat
    rwa [Int.toNat_of_nonneg hnonneg] at hmeans
  · rintro ⟨⟩
    simp [Value.natural?]

theorem number?_eq_some_iff {x : Binary64} :
    value.number? = some x ↔ Means .number value (.number x) := by
  constructor
  · intro h
    cases value <;> simp [Value.number?] at h
    · exact h ▸ .integer _
    · exact h ▸ .float _
  · rintro (_ | _)
    · rfl
    · rfl

/-- A value means one thing for a kind of settings. -/
theorem Means.unique {kind : Kind} {content content' : Content} (h : Means kind value content)
    (h' : Means kind value content') : content = content' := by
  cases h <;> cases h' <;> rfl

theorem group?_isSome_iff : value.group?.isSome = true ↔ IsSection value := by
  constructor
  · intro h
    cases value <;> simp [Value.group?] at h
    · exact .dateTime
    · exact .array _
    · exact .tables _
    · exact .table _ _
  · rintro (_ | _ | _ | _) <;> rfl

/-- What is found in a section is what it holds. -/
theorem holds_iff {found : String → Nat → Option Value} {key : String} {place : Nat}
    {group : Value} (h : group.group? = some found) :
    found key place = some value ↔ Holds key place group value := by
  cases group <;> simp [Value.group?] at h <;> subst h
  · exact ⟨fun h => by simp at h, nofun⟩
  · exact ⟨.item, fun | .item h => h⟩
  · constructor
    · intro h
      obtain ⟨inner, hinner, rfl⟩ := Option.map_eq_some_iff.mp h
      exact .element hinner
    · rintro (_ | _ | hinner)
      simp [hinner]
  · exact ⟨.entry, fun | .entry h => h⟩

/-- A setting without a section is given by a key of the document. -/
theorem given_of_top (setting : Setting) (h : setting.section? = none) :
    setting.Given entries value ↔ entries.get? setting.key = some value := by
  rw [Setting.Given, h]

/-- A setting with a section is given by what the section holds. -/
theorem given_of_section (setting : Setting) {name : String} (h : setting.section? = some name) :
    setting.Given entries value ↔ ∃ group, entries.get? name = some group ∧
      Holds setting.key setting.place group value := by
  rw [Setting.Given, h]

theorem Setting.Given.unique {setting : Setting} {value' : Value}
    (h : setting.Given entries value) (h' : setting.Given entries value') : value = value' := by
  cases hsection : setting.section? with
  | none =>
    rw [given_of_top setting hsection] at h h'
    exact Option.some.inj (h.symm.trans h')
  | some name =>
    rw [given_of_section setting hsection] at h h'
    obtain ⟨group, hgroup, hholds⟩ := h
    obtain ⟨group', hgroup', hholds'⟩ := h'
    obtain rfl := Option.some.inj (hgroup.symm.trans hgroup')
    obtain ⟨found, hfound⟩ := Option.isSome_iff_exists.mp (group?_isSome_iff.mpr hholds.isSection)
    rw [← holds_iff hfound] at hholds hholds'
    exact Option.some.inj (hholds.symm.trans hholds')

/-- A setting that is read is chosen, and nothing else is. -/
theorem settingOr_eq_some_iff {α : Type} {read : Value → Option α} {value? : Option Value}
    {setting : Setting} {content : α → Content} {default x : α}
    (hgiven : ∀ value, value? = some value ↔ setting.Given entries value)
    (hread : ∀ value x, read value = some x ↔ Means setting.kind value (content x))
    (hinjective : Function.Injective content)
    (hdefault : Settings.default.get setting = content default) :
    settingOr read default value? = some x ↔ setting.Chosen entries (content x) := by
  have hchosen : setting.Chosen entries (content x) ↔
      (∃ value, value? = some value ∧ read value = some x) ∨ value? = none ∧ default = x := by
    simp only [Setting.Chosen, ← hgiven, ← hread, Setting.default_eq, hdefault,
      hinjective.eq_iff, Option.eq_none_iff_forall_ne_some, ne_eq, eq_comm]
  rw [hchosen]
  cases value? with
  | none => simp [settingOr]
  | some value => simp [settingOr]

section Kinds

variable {value? : Option Value} (setting : Setting)
  (hgiven : ∀ value, value? = some value ↔ setting.Given entries value)

include hgiven

theorem text_chosen_iff (default : String) (hkind : setting.kind = .text)
    (hdefault : Settings.default.get setting = .text default) (text : String) :
    settingOr Value.text? default value? = some text ↔ setting.Chosen entries (.text text) :=
  settingOr_eq_some_iff hgiven (fun _ _ => hkind ▸ text?_eq_some_iff)
    (fun _ _ => Content.text.inj) hdefault

theorem natural_chosen_iff (default : Nat) (hkind : setting.kind = .natural)
    (hdefault : Settings.default.get setting = .natural default) (n : Nat) :
    settingOr Value.natural? default value? = some n ↔ setting.Chosen entries (.natural n) :=
  settingOr_eq_some_iff hgiven (fun _ _ => hkind ▸ natural?_eq_some_iff)
    (fun _ _ => Content.natural.inj) hdefault

theorem number_chosen_iff (default : Binary64) (hkind : setting.kind = .number)
    (hdefault : Settings.default.get setting = .number default) (x : Binary64) :
    settingOr Value.number? default value? = some x ↔ setting.Chosen entries (.number x) :=
  settingOr_eq_some_iff hgiven (fun _ _ => hkind ▸ number?_eq_some_iff)
    (fun _ _ => Content.number.inj) hdefault

end Kinds

end Reading

/-- A section that is present is written as one. -/
def SectionFits (entries : Entries) (name : String) : Prop :=
  ∀ value, entries.get? name = some value → IsSection value

/-- What a section gives for a setting with a key and a place. -/
def inSection (entries : Entries) (name key : String) (place : Nat) : Option Value := do
  let group ← entries.get? name
  let found ← group.group?
  found key place

/-- The settings of scripts by what their section gives. -/
def ScriptSettings.ofFound? (found : String → Nat → Option Value) : Option ScriptSettings := do
  let lineDelay ←
    settingOr Value.natural? ScriptSettings.default.lineDelay (found "line_delay_ms" 0)
  let defaultPauseSeconds ←
    settingOr Value.number? ScriptSettings.default.defaultPauseSeconds
      (found "default_pause_secs" 1)
  let commentPrefix ←
    settingOr Value.text? ScriptSettings.default.commentPrefix (found "comment_prefix" 2)
  let pauseDirective ←
    settingOr Value.text? ScriptSettings.default.pauseDirective (found "pause_directive" 3)
  some { lineDelay, defaultPauseSeconds, commentPrefix, pauseDirective }

section Merging

variable {entries : Entries} {s : Settings}

theorem inSection_eq_some_iff (setting : Setting) {name : String}
    (h : setting.section? = some name) (value : Value) :
    inSection entries name setting.key setting.place = some value ↔
      setting.Given entries value := by
  rw [given_of_section setting h]
  simp only [inSection, bind, Option.bind_eq_some_iff]
  refine exists_congr fun group => and_congr_right fun _ => ?_
  constructor
  · rintro ⟨found, hfound, hvalue⟩
    exact (holds_iff hfound).mp hvalue
  · intro hholds
    obtain ⟨found, hfound⟩ := Option.isSome_iff_exists.mp (group?_isSome_iff.mpr hholds.isSection)
    exact ⟨found, hfound, (holds_iff hfound).mpr hholds⟩

/-- The settings of a section are read from what the section gives, unless it is not one. -/
theorem section_eq_some_iff {α : Type} (name : String) (readGroup : Value → Option α)
    (body : (String → Nat → Option Value) → Option α) (default x : α)
    (hread : ∀ value, readGroup value = value.group?.bind body)
    (hempty : body (fun _ _ => none) = some default) :
    settingOr readGroup default (entries.get? name) = some x ↔
      SectionFits entries name ∧ body (inSection entries name) = some x := by
  cases hgroup : entries.get? name with
  | none =>
    have hsection : inSection entries name = fun _ _ => none := by
      funext key place
      simp [inSection, hgroup]
    simp [settingOr, SectionFits, hgroup, hsection, hempty]
  | some group =>
    simp only [settingOr, hread, SectionFits, hgroup, Option.some.injEq, forall_eq',
      ← group?_isSome_iff]
    cases hfound : group.group? with
    | none => simp
    | some found =>
      have hsection : inSection entries name = found := by
        funext key place
        simp [inSection, hgroup, hfound]
      simp [hsection]

/-- The capacity of the history is read from what its section gives. -/
theorem history_eq_some_iff {n : Nat} :
    settingOr Settings.historyCapacityOfValue? Settings.default.historyCapacity
        (entries.get? "history") = some n ↔
      SectionFits entries "history" ∧ Setting.historyCapacity.Chosen entries (.natural n) := by
  rw [section_eq_some_iff "history" Settings.historyCapacityOfValue?
    (fun found => settingOr Value.natural? Settings.default.historyCapacity
      (found "max_entries" 0)) _ _ (fun _ => rfl) rfl]
  exact and_congr_right fun _ =>
    natural_chosen_iff .historyCapacity (inSection_eq_some_iff .historyCapacity rfl) _ rfl rfl n

/-- The settings of scripts are read from what their section gives. -/
theorem script_eq_some_iff {script : ScriptSettings} :
    settingOr ScriptSettings.ofValue? .default (entries.get? "script") = some script ↔
      SectionFits entries "script" ∧
      Setting.lineDelay.Chosen entries (.natural script.lineDelay) ∧
      Setting.defaultPauseSeconds.Chosen entries (.number script.defaultPauseSeconds) ∧
      Setting.commentPrefix.Chosen entries (.text script.commentPrefix) ∧
      Setting.pauseDirective.Chosen entries (.text script.pauseDirective) := by
  rw [section_eq_some_iff "script" ScriptSettings.ofValue? ScriptSettings.ofFound? _ _
      (fun _ => rfl) rfl,
    ← natural_chosen_iff .lineDelay (inSection_eq_some_iff .lineDelay rfl)
      ScriptSettings.default.lineDelay rfl rfl,
    ← number_chosen_iff .defaultPauseSeconds (inSection_eq_some_iff .defaultPauseSeconds rfl)
      ScriptSettings.default.defaultPauseSeconds rfl rfl,
    ← text_chosen_iff .commentPrefix (inSection_eq_some_iff .commentPrefix rfl)
      ScriptSettings.default.commentPrefix rfl rfl,
    ← text_chosen_iff .pauseDirective (inSection_eq_some_iff .pauseDirective rfl)
      ScriptSettings.default.pauseDirective rfl rfl]
  simp only [ScriptSettings.ofFound?, bind, Option.bind_eq_some_iff, Option.some.injEq]
  refine and_congr_right fun _ => ?_
  constructor
  · rintro ⟨_, hlineDelay, _, hpause, _, hcomment, _, hdirective, rfl⟩
    exact ⟨hlineDelay, hpause, hcomment, hdirective⟩
  · rintro ⟨hlineDelay, hpause, hcomment, hdirective⟩
    exact ⟨_, hlineDelay, _, hpause, _, hcomment, _, hdirective, rfl⟩

/-- The settings in a document whose sections are sections are those over the defaults. -/
theorem ofEntries?_eq_some_iff : Settings.ofEntries? entries = some s ↔
    (SectionFits entries "history" ∧ SectionFits entries "script") ∧ Merges entries s := by
  have hversion : ∀ text, settingOr Value.text? Settings.default.version
      (entries.get? "version") = some text ↔ Setting.version.Chosen entries (.text text) :=
    text_chosen_iff .version (fun _ => Iff.rfl) _ rfl rfl
  have hbanner : ∀ text, settingOr Value.text? Settings.default.banner
      (entries.get? "banner") = some text ↔ Setting.banner.Chosen entries (.text text) :=
    text_chosen_iff .banner (fun _ => Iff.rfl) _ rfl rfl
  simp only [Settings.ofEntries?, bind, Option.bind_eq_some_iff, Option.some.injEq]
  constructor
  · rintro ⟨_, hv, _, hb, _, hh, _, hs, rfl⟩
    obtain ⟨hhistory, hcapacity⟩ := history_eq_some_iff.mp hh
    obtain ⟨hscript, hlineDelay, hpause, hcomment, hdirective⟩ := script_eq_some_iff.mp hs
    refine ⟨⟨hhistory, hscript⟩, fun setting => ?_⟩
    cases setting with
    | version => exact (hversion _).mp hv
    | banner => exact (hbanner _).mp hb
    | historyCapacity => exact hcapacity
    | lineDelay => exact hlineDelay
    | defaultPauseSeconds => exact hpause
    | commentPrefix => exact hcomment
    | pauseDirective => exact hdirective
  · rintro ⟨⟨hhistory, hscript⟩, hmerges⟩
    exact ⟨_, (hversion _).mpr (hmerges .version), _, (hbanner _).mpr (hmerges .banner), _,
      history_eq_some_iff.mpr ⟨hhistory, hmerges .historyCapacity⟩, _,
      script_eq_some_iff.mpr ⟨hscript, hmerges .lineDelay, hmerges .defaultPauseSeconds,
        hmerges .commentPrefix, hmerges .pauseDirective⟩, rfl⟩

end Merging

section Admission

variable {entries : Entries} {s : Settings}

/-- A number of the format is neither infinite nor below zero when it stands for a number that is
not below zero. -/
theorem exists_value?_iff {x : Binary64} :
    (∃ v, x.value? = some v ∧ 0 ≤ v) ↔ x.isFinite = true ∧ x.isBelowZero = false := by
  constructor
  · rintro ⟨v, hvalue, hnonneg⟩
    cases x with
    | nan => simp [Binary64.value?] at hvalue
    | infinite negative => simp [Binary64.value?] at hvalue
    | finite negative m =>
      refine ⟨rfl, ?_⟩
      cases negative with
      | false => rfl
      | true =>
        obtain rfl := Option.some.inj hvalue
        by_contra hbelow
        have hpos : 0 < m.units := by
          have hne : m.significand ≠ 0 := by simpa [Binary64.isBelowZero] using hbelow
          exact Nat.mul_pos (Nat.pos_of_ne_zero hne) (Nat.pow_pos (by decide))
        have hunits : (0 : ℚ) < m.units / Magnitude.unitsPerOne :=
          div_pos (by exact_mod_cast hpos) (by exact_mod_cast Binary64.unitsPerOne_pos)
        simp only [if_true] at hnonneg
        linarith
  · rintro ⟨hfinite, hnonneg⟩
    obtain ⟨_, m, -, hvalue⟩ := Binary64.exists_magnitude hfinite hnonneg
    exact ⟨_, hvalue, div_nonneg (Nat.cast_nonneg _) (Nat.cast_nonneg _)⟩

theorem isBlank_eq_false_iff {text : String} :
    Text.isBlank text = false ↔ ∃ c ∈ text.toList, Text.isBlankChar c = false := by
  simp [Text.isBlank]

theorem validate_eq_ok_iff_admissible : s.validate = .ok () ↔ Admissible s := by
  rw [s.validate_eq_ok_iff]
  constructor
  · rintro ⟨hcapacity, hfinite, hnonneg, hcomment, hpause⟩
    exact ⟨Nat.one_le_iff_ne_zero.mpr hcapacity, exists_value?_iff.mpr ⟨hfinite, hnonneg⟩,
      isBlank_eq_false_iff.mp hcomment, isBlank_eq_false_iff.mp hpause⟩
  · rintro ⟨hcapacity, hdefault, hcomment, hpause⟩
    obtain ⟨hfinite, hnonneg⟩ := exists_value?_iff.mp hdefault
    exact ⟨Nat.one_le_iff_ne_zero.mp hcapacity, hfinite, hnonneg,
      isBlank_eq_false_iff.mpr hcomment, isBlank_eq_false_iff.mpr hpause⟩

theorem ofTable_eq_ok_iff : Settings.ofTable entries = .ok s ↔
    Settings.ofEntries? entries = some s ∧ Admissible s := by
  rw [← validate_eq_ok_iff_admissible, Settings.ofTable]
  cases hentries : Settings.ofEntries? entries with
  | none => simp
  | some settings =>
    cases hvalid : settings.validate with
    | ok =>
      simp only [hvalid, Except.ok.injEq, Option.some.injEq]
      exact ⟨fun h => ⟨h, h ▸ hvalid⟩, And.left⟩
    | error cause =>
      simp only [hvalid, reduceCtorEq, Option.some.injEq, false_iff]
      rintro ⟨rfl, hok⟩
      simp [hvalid] at hok

/-- A setting has at most one content by a document. -/
theorem Setting.Chosen.unique {setting : Setting} {content content' : Content}
    (h : setting.Chosen entries content) (h' : setting.Chosen entries content') :
    content = content' := by
  rcases h with ⟨value, hgiven, hmeans⟩ | ⟨hnone, rfl⟩
  · rcases h' with ⟨value', hgiven', hmeans'⟩ | ⟨hnone, -⟩
    · obtain rfl := hgiven.unique hgiven'
      exact hmeans.unique hmeans'
    · exact absurd hgiven (hnone value)
  · rcases h' with ⟨value', hgiven', -⟩ | ⟨-, rfl⟩
    · exact absurd hgiven' (hnone value')
    · rfl

/-- Settings are determined by what each of them is. -/
theorem Settings.eq_of_get {t : Settings} (h : ∀ setting, s.get setting = t.get setting) :
    s = t := by
  have hversion := Content.text.inj (h .version)
  have hbanner := Content.text.inj (h .banner)
  have hcapacity := Content.natural.inj (h .historyCapacity)
  have hlineDelay := Content.natural.inj (h .lineDelay)
  have hpause := Content.number.inj (h .defaultPauseSeconds)
  have hcomment := Content.text.inj (h .commentPrefix)
  have hdirective := Content.text.inj (h .pauseDirective)
  obtain ⟨version, banner, capacity, lineDelay, pause, comment, directive⟩ := s
  obtain ⟨version', banner', capacity', lineDelay', pause', comment', directive'⟩ := t
  simp_all

/-- What a setting can be is of its kind. -/
theorem Setting.Chosen.kind_eq {setting : Setting} {content : Content}
    (h : setting.Chosen entries content) : content.kind = setting.kind := by
  rcases h with ⟨value, -, hmeans⟩ | ⟨-, rfl⟩
  · generalize setting.kind = kind at hmeans
    cases hmeans <;> rfl
  · cases setting <;> rfl

/-- Contents of the right kinds make settings. -/
theorem Settings.exists_get {contents : Setting → Content}
    (h : ∀ setting, (contents setting).kind = setting.kind) :
    ∃ s : Settings, ∀ setting, s.get setting = contents setting := by
  obtain ⟨version, hversion⟩ := (contents .version).exists_text (h .version)
  obtain ⟨banner, hbanner⟩ := (contents .banner).exists_text (h .banner)
  obtain ⟨capacity, hcapacity⟩ := (contents .historyCapacity).exists_natural (h .historyCapacity)
  obtain ⟨lineDelay, hlineDelay⟩ := (contents .lineDelay).exists_natural (h .lineDelay)
  obtain ⟨pause, hpause⟩ := (contents .defaultPauseSeconds).exists_number (h .defaultPauseSeconds)
  obtain ⟨comment, hcomment⟩ := (contents .commentPrefix).exists_text (h .commentPrefix)
  obtain ⟨directive, hdirective⟩ := (contents .pauseDirective).exists_text (h .pauseDirective)
  refine ⟨⟨version, banner, capacity, lineDelay, pause, comment, directive⟩, fun setting => ?_⟩
  cases setting with
  | version => exact hversion.symm
  | banner => exact hbanner.symm
  | historyCapacity => exact hcapacity.symm
  | lineDelay => exact hlineDelay.symm
  | defaultPauseSeconds => exact hpause.symm
  | commentPrefix => exact hcomment.symm
  | pauseDirective => exact hdirective.symm

/-- A document whose keys fit can be merged with the defaults in one way. -/
theorem KeysFit.exists_merges (h : KeysFit entries) : ∃! s, Merges entries s := by
  have hcontent : ∀ setting : Setting, ∃ content, setting.Chosen entries content := by
    intro setting
    by_cases hgiven : ∃ value, setting.Given entries value
    · obtain ⟨value, hgiven⟩ := hgiven
      obtain ⟨content, hmeans⟩ := h.settings setting value hgiven
      exact ⟨content, Or.inl ⟨value, hgiven, hmeans⟩⟩
    · exact ⟨setting.default, Or.inr ⟨not_exists.mp hgiven, rfl⟩⟩
  choose contents hchosen using hcontent
  obtain ⟨s, hs⟩ := Settings.exists_get fun setting => (hchosen setting).kind_eq
  refine ⟨s, fun setting => hs setting ▸ hchosen setting, fun t ht => ?_⟩
  exact Settings.eq_of_get fun setting => (ht setting).unique (hs setting ▸ hchosen setting)

/-- The keys of a document that was merged fit, if its sections are sections. -/
theorem Merges.keysFit (hmerges : Merges entries s) (hhistory : SectionFits entries "history")
    (hscript : SectionFits entries "script") : KeysFit entries where
  sections name hname := by
    simp only [List.mem_cons, List.not_mem_nil, or_false] at hname
    rcases hname with rfl | rfl
    · exact hhistory
    · exact hscript
  settings setting value hgiven := by
    rcases hmerges setting with ⟨value', hgiven', hmeans⟩ | ⟨hnone, -⟩
    · exact ⟨_, hgiven.unique hgiven' ▸ hmeans⟩
    · exact absurd hgiven (hnone value)

/-- A document gives settings if its keys fit, the merged settings are these, and they are
admissible. -/
theorem ofTable_eq_ok_iff_keysFit : Settings.ofTable entries = .ok s ↔
    KeysFit entries ∧ Merges entries s ∧ Admissible s := by
  rw [ofTable_eq_ok_iff, ofEntries?_eq_some_iff]
  constructor
  · rintro ⟨⟨⟨hhistory, hscript⟩, hmerges⟩, hadmissible⟩
    exact ⟨hmerges.keysFit hhistory hscript, hmerges, hadmissible⟩
  · rintro ⟨hfit, hmerges, hadmissible⟩
    exact ⟨⟨⟨hfit.sections _ (by simp), hfit.sections _ (by simp)⟩, hmerges⟩, hadmissible⟩

end Admission

end CommandConsole
