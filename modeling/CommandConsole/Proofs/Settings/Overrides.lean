import CommandConsole.Proofs.Settings.Merging
import Mathlib.Data.List.Nodup
import Mathlib.Logic.Relation

/-!
# What overrides the defaults

Documents say the same about the settings when they differ in the order of their keys, in keys that
are not known, or in sections without settings, and then they get the same answer. So the answer to
a document is told by the values of its known keys alone: each of them overrides the default of its
setting and no other one.
-/

namespace CommandConsole

open Toml (Value Entries Origin)

/-- The content of a table in another order, or with a key more that is not known. -/
inductive Rearranged (known : List String) : Entries → Entries → Prop
  | order {entries entries' : Entries} : (entries.map Prod.fst).Nodup → entries.Perm entries' →
      Rearranged known entries entries'
  | unknown (front back : Entries) {key : String} (value : Value) : key ∉ known →
      Rearranged known (front ++ back) (front ++ (key, value) :: back)

/-- The keys that are known in a document. -/
def documentKeys : List String :=
  ["version", "banner", "history", "script"]

/-- The sections with the keys that are known in them, in the order of their places. -/
def sectionKeys : List (String × List String) :=
  [("history", ["max_entries"]),
    ("script", ["line_delay_ms", "default_pause_secs", "comment_prefix", "pause_directive"])]

/-- A section rearranged, or with more items than there are settings in it. -/
inductive SectionAlike (known : List String) : Value → Value → Prop
  | table (origin origin' : Origin) {entries entries' : Entries} :
      Rearranged known entries entries' →
      SectionAlike known (.table origin entries) (.table origin' entries')
  | array {items : List Value} (more : List Value) : known.length ≤ items.length →
      SectionAlike known (.array items) (.array (items ++ more))

/-- A section that gives no settings. -/
inductive IsEmptySection : Value → Prop
  | table (origin : Origin) : IsEmptySection (.table origin [])
  | array : IsEmptySection (.array [])
  | dateTime : IsEmptySection .dateTime

/-- A document with one thing written otherwise that does not matter: the order of its keys, an
unknown key, the same inside a section, or an empty section in place of a missing one. -/
inductive Alike : Entries → Entries → Prop
  | document {entries entries' : Entries} : Rearranged documentKeys entries entries' →
      Alike entries entries'
  | inside (front back : Entries) {name : String} {known : List String} {group group' : Value} :
      (name, known) ∈ sectionKeys → SectionAlike known group group' →
      Alike (front ++ (name, group) :: back) (front ++ (name, group') :: back)
  | missing (front back : Entries) {name : String} {known : List String} {group : Value} :
      (name, known) ∈ sectionKeys → name ∉ (front ++ back).map Prod.fst → IsEmptySection group →
      Alike (front ++ back) (front ++ (name, group) :: back)

section Rearranging

variable {entries entries' : Entries} {key name : String} {known : List String}

theorem get?_append (front back : Entries) :
    Entries.get? (front ++ back) key = (front.get? key).or (back.get? key) :=
  List.lookup_append

theorem get?_cons_self (value : Value) (back : Entries) :
    Entries.get? ((key, value) :: back) key = some value :=
  List.lookup_cons_self

theorem get?_cons_of_ne (h : key ≠ name) (value : Value) (back : Entries) :
    Entries.get? ((name, value) :: back) key = back.get? key := by
  rw [Entries.get?, List.lookup_cons, beq_false_of_ne h]
  rfl

/-- Where each key stands once, its value is the one that stands with it. -/
theorem get?_eq_some_iff_mem (h : (entries.map Prod.fst).Nodup) {value : Value} :
    entries.get? key = some value ↔ (key, value) ∈ entries := by
  induction entries with
  | nil => simp [Entries.get?]
  | cons entry entries ih =>
    obtain ⟨name, first⟩ := entry
    rw [List.map_cons, List.nodup_cons] at h
    by_cases hkey : key = name
    · subst hkey
      have hnot : (key, value) ∉ entries := fun hmem => h.1 (List.mem_map.mpr ⟨_, hmem, rfl⟩)
      rw [get?_cons_self, List.mem_cons]
      simp [hnot, eq_comm]
    · rw [get?_cons_of_ne hkey, ih h.2, List.mem_cons]
      simp [hkey]

/-- Rearranging leaves the values of the known keys. -/
theorem Rearranged.get?_eq (h : Rearranged known entries entries') (hkey : key ∈ known) :
    entries.get? key = entries'.get? key := by
  cases h with
  | order hnodup hperm =>
    have hnodup' := (hperm.map Prod.fst).nodup_iff.mp hnodup
    refine Option.ext fun value => ?_
    rw [get?_eq_some_iff_mem hnodup, get?_eq_some_iff_mem hnodup', hperm.mem_iff]
  | unknown front back value hunknown =>
    rw [get?_append, get?_append, get?_cons_of_ne (ne_of_mem_of_not_mem hkey hunknown)]

/-- The document holds the same sections, and gives the same values for all settings. -/
structure SaysSame (entries entries' : Entries) : Prop where
  given : ∀ (setting : Setting) (value : Value),
    setting.Given entries value ↔ setting.Given entries' value
  fits : ∀ name ∈ ["history", "script"], SectionFits entries name ↔ SectionFits entries' name

theorem mem_sectionKeys_of_section {setting : Setting} (hsection : setting.section? = some name)
    (hknown : (name, known) ∈ sectionKeys) :
    setting.key ∈ known ∧ setting.place < known.length := by
  simp only [sectionKeys, List.mem_cons, Prod.mk.injEq, List.not_mem_nil, or_false] at hknown
  rcases hknown with ⟨rfl, rfl⟩ | ⟨rfl, rfl⟩ <;>
    cases setting <;> simp [Setting.section?, Setting.key, Setting.place] at hsection ⊢

/-- Sections that are alike hold the same for the settings in them. -/
theorem SectionAlike.holds_iff {group group' : Value} (h : SectionAlike known group group')
    {place : Nat} (hkey : key ∈ known) (hplace : place < known.length) (value : Value) :
    Holds key place group value ↔ Holds key place group' value := by
  cases h with
  | table origin origin' hrearranged =>
    have hget := hrearranged.get?_eq hkey
    exact ⟨fun | .entry h => .entry (hget ▸ h), fun | .entry h => .entry (hget ▸ h)⟩
  | @array items more hlong =>
    have hitem : (items ++ more)[place]? = items[place]? :=
      List.getElem?_append_left (Nat.lt_of_lt_of_le hplace hlong)
    exact ⟨fun | .item h => .item (hitem.trans h), fun | .item h => .item (hitem.symm.trans h)⟩

theorem SectionAlike.isSection {group group' : Value} (h : SectionAlike known group group') :
    IsSection group ∧ IsSection group' := by
  cases h with
  | table origin origin' _ => exact ⟨.table _ _, .table _ _⟩
  | array more _ => exact ⟨.array _, .array _⟩

theorem IsEmptySection.isSection {group : Value} (h : IsEmptySection group) : IsSection group := by
  cases h with
  | table origin => exact .table _ _
  | array => exact .array _
  | dateTime => exact .dateTime

theorem IsEmptySection.not_holds {group value : Value} (h : IsEmptySection group) {place : Nat} :
    ¬ Holds key place group value := by
  intro hholds
  cases h with
  | table origin =>
    cases hholds with
    | entry hget => simp [Entries.get?] at hget
  | array =>
    cases hholds with
    | item hitem => simp at hitem
  | dateTime => cases hholds

/-- Documents that agree but for a section say the same, if the section does. -/
theorem saysSame_of_section (hknown : (name, known) ∈ sectionKeys)
    (hother : ∀ key, key ≠ name → entries.get? key = entries'.get? key)
    (hgiven : ∀ key place value, key ∈ known → place < known.length →
      ((∃ group, entries.get? name = some group ∧ Holds key place group value) ↔
        ∃ group, entries'.get? name = some group ∧ Holds key place group value))
    (hfits : SectionFits entries name ↔ SectionFits entries' name) :
    SaysSame entries entries' where
  given setting value := by
    cases hsection : setting.section? with
    | none =>
      rw [given_of_top setting hsection, given_of_top setting hsection, hother]
      rintro rfl
      simp only [sectionKeys, List.mem_cons, Prod.mk.injEq, List.not_mem_nil, or_false] at hknown
      cases setting <;> simp [Setting.section?, Setting.key] at hsection hknown
    | some other =>
      rw [given_of_section setting hsection, given_of_section setting hsection]
      by_cases hname : other = name
      · subst hname
        obtain ⟨hkey, hplace⟩ := mem_sectionKeys_of_section hsection hknown
        exact hgiven _ _ value hkey hplace
      · rw [hother other hname]
  fits other _ := by
    by_cases hname : other = name
    · exact hname ▸ hfits
    · simp only [SectionFits, hother other hname]

/-- A document rearranged says the same. -/
theorem Rearranged.saysSame (h : Rearranged documentKeys entries entries') :
    SaysSame entries entries' where
  given setting value := by
    cases hsection : setting.section? with
    | none =>
      have hkey : setting.key ∈ documentKeys := by
        cases setting <;> simp [Setting.section?, Setting.key, documentKeys] at hsection ⊢
      rw [given_of_top setting hsection, given_of_top setting hsection, h.get?_eq hkey]
    | some name =>
      have hkey : name ∈ documentKeys := by
        cases setting <;> simp [Setting.section?, documentKeys] at hsection ⊢ <;>
          simp [← hsection]
      rw [given_of_section setting hsection, given_of_section setting hsection, h.get?_eq hkey]
  fits name hname := by
    have hkey : name ∈ documentKeys := by
      simp only [List.mem_cons, List.not_mem_nil, or_false] at hname
      rcases hname with rfl | rfl <;> simp [documentKeys]
    simp only [SectionFits, h.get?_eq hkey]

/-- A document with a section that is written otherwise says the same. -/
theorem SectionAlike.saysSame {group group' : Value} (h : SectionAlike known group group')
    (hknown : (name, known) ∈ sectionKeys) (front back : Entries) :
    SaysSame (front ++ (name, group) :: back) (front ++ (name, group') :: back) := by
  have hvalue : ∀ group, Entries.get? (front ++ (name, group) :: back) name =
      (front.get? name).or (some group) := by
    intro group
    rw [get?_append, get?_cons_self]
  refine saysSame_of_section hknown (fun key hkey => ?_) (fun key place value hkey hplace => ?_) ?_
  · rw [get?_append, get?_append, get?_cons_of_ne hkey, get?_cons_of_ne hkey]
  · rw [hvalue, hvalue]
    cases front.get? name with
    | some first => rfl
    | none => simpa using h.holds_iff hkey hplace value
  · rw [SectionFits, SectionFits, hvalue, hvalue]
    cases front.get? name with
    | some first => rfl
    | none => simp [h.isSection]

/-- A document with an empty section in place of a missing one says the same. -/
theorem IsEmptySection.saysSame {group : Value} (h : IsEmptySection group)
    (hknown : (name, known) ∈ sectionKeys) {front back : Entries}
    (hmissing : name ∉ (front ++ back).map Prod.fst) :
    SaysSame (front ++ back) (front ++ (name, group) :: back) := by
  have hnone : Entries.get? (front ++ back) name = none := by
    refine List.lookup_eq_none_iff.mpr fun entry hentry => ?_
    rw [bne_iff_ne]
    rintro rfl
    exact hmissing (List.mem_map_of_mem hentry)
  have hsome : Entries.get? (front ++ (name, group) :: back) name = some group := by
    rw [get?_append, Option.or_eq_none_iff] at hnone
    rw [get?_append, get?_cons_self, hnone.1, Option.none_or]
  refine saysSame_of_section hknown (fun key hkey => ?_) (fun key place value _ _ => ?_) ?_
  · rw [get?_append, get?_append, get?_cons_of_ne hkey]
  · simp [hnone, hsome, h.not_holds]
  · simp [SectionFits, hnone, hsome, h.isSection]

/-- Documents that are alike say the same. -/
theorem Alike.saysSame (h : Alike entries entries') : SaysSame entries entries' := by
  cases h with
  | document hrearranged => exact hrearranged.saysSame
  | inside front back hknown halike => exact halike.saysSame hknown front back
  | missing front back hknown hmissing hempty => exact hempty.saysSame hknown hmissing

/-- Documents that say the same give the same settings. -/
theorem SaysSame.ofTable_eq (h : SaysSame entries entries') :
    Settings.ofTable entries = Settings.ofTable entries' := by
  have hentries : Settings.ofEntries? entries = Settings.ofEntries? entries' := by
    refine Option.ext fun s => ?_
    rw [ofEntries?_eq_some_iff, ofEntries?_eq_some_iff, h.fits _ (by simp), h.fits _ (by simp)]
    simp only [Merges, Setting.Chosen, h.given]
  rw [Settings.ofTable, Settings.ofTable, hentries]

end Rearranging

/-- The answer to a document is its settings over the defaults. -/
structure Overrides (entries : Entries) : Prop where
  /-- There is an answer just when the keys fit and the merged settings are admissible, and these
  settings are the answer. -/
  answer : ∀ s, Settings.ofTable entries = .ok s ↔
    KeysFit entries ∧ Merges entries s ∧ Admissible s
  /-- A document whose keys fit is merged with the defaults in one way. -/
  merged : KeysFit entries → ∃! s, Merges entries s
  /-- The order of keys, unknown keys and empty sections do not matter. -/
  alike : ∀ entries', Relation.EqvGen Alike entries entries' →
    Settings.ofTable entries' = Settings.ofTable entries
  /-- The history keeps as many lines as the settings say. -/
  capacity : ∀ s, Settings.ofTable entries = .ok s →
    (History.withCapacity s.historyCapacity).capacity = s.historyCapacity
  /-- This is the answer to every text that is read as the document. -/
  text : ∀ text, Toml.parse? text = some entries → Settings.ofText text = Settings.ofTable entries

/-- Every document overrides the defaults, setting by setting. -/
theorem overrides_of_entries (entries : Entries) : Overrides entries where
  answer _ := ofTable_eq_ok_iff_keysFit
  merged := KeysFit.exists_merges
  alike entries' h := by
    induction h with
    | rel _ _ halike => exact halike.saysSame.ofTable_eq.symm
    | refl _ => rfl
    | symm _ _ _ ih => exact ih.symm
    | trans _ _ _ _ _ ih ih' => exact ih'.trans ih
  capacity s hs := by
    obtain ⟨-, -, hadmissible⟩ := ofTable_eq_ok_iff_keysFit.mp hs
    exact max_eq_left hadmissible.historyCapacity
  text text htext := by rw [Settings.ofText, htext]

-- a section in braces, a section as an array that stops early, and keys that are not known
example : Settings.ofText
    "script = [7, 2]\nbanner = \"B\"\nhistory = \x7b max_entries = 5, least = 1 \x7d\n[more]\nx = 1\n" =
      .ok { Settings.default with
        banner := "B"
        historyCapacity := 5
        script := { ScriptSettings.default with
          lineDelay := 7
          defaultPauseSeconds := .ofInt 2 } } := by
  decide +kernel

end CommandConsole
