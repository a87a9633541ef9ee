import CommandConsole.Proofs.Script.Line
import CommandConsole.Proofs.Script.SingleFlight
import CommandConsole.Proofs.Script.Plan
import Mathlib.Data.List.DropRight

/-!
# Marked lines

Comments and pause directives are told by a mark at the front of the trimmed line. Trimming can take
the mark away: white space at the front of a mark is always lost, and white space at its end is lost
where nothing but white space follows. Only such lines are handed over with a mark at their front,
and a mark without white space at its ends keeps every line it marks from being handed over.
-/

namespace CommandConsole

namespace Text

/-- A line that consists of a mark and this rest loses the mark when it is trimmed. -/
def LosesMark (mark rest : List Char) : Prop :=
  (∃ c ∈ mark.head?, isBlankChar c = true) ∨
    (∃ c ∈ mark.getLast?, isBlankChar c = true) ∧ rest.all isBlankChar = true

theorem trimChars_eq_rdropWhile (cs : List Char) :
    trimChars cs = (cs.dropWhile isBlankChar).rdropWhile isBlankChar := rfl

/-- A trimmed text does not begin with white space. -/
theorem isBlankChar_head_trimChars {cs : List Char} {c : Char} (h : c ∈ (trimChars cs).head?) :
    isBlankChar c = false := by
  have hbegins : trimChars cs <+: cs.dropWhile isBlankChar := List.rdropWhile_prefix ..
  obtain ⟨tail, htail⟩ := hbegins
  have hhead : (cs.dropWhile isBlankChar).head? = some c := by
    rw [← htail, List.head?_append, Option.mem_def.mp h, Option.some_or]
  have hnot := List.head?_dropWhile_not isBlankChar cs
  rw [hhead] at hnot
  simpa using hnot

/-- A trimmed text does not end with white space. -/
theorem isBlankChar_getLast_trimChars {cs : List Char} {c : Char}
    (h : c ∈ (trimChars cs).getLast?) : isBlankChar c = false := by
  have hnot := List.head?_dropWhile_not isBlankChar (cs.dropWhile isBlankChar).reverse
  rw [trimChars, List.getLast?_reverse] at h
  rw [Option.mem_def.mp h] at hnot
  simpa using hnot

/-- White space at the end of a text is dropped, and behind it the end of what is in front. -/
theorem rdropWhile_append (front rest : List Char) :
    (front ++ rest).rdropWhile isBlankChar =
      if rest.all isBlankChar then front.rdropWhile isBlankChar
      else front ++ rest.rdropWhile isBlankChar := by
  unfold List.rdropWhile
  rw [List.reverse_append, List.dropWhile_append]
  by_cases hblank : rest.all isBlankChar = true
  · have hnil : rest.reverse.dropWhile isBlankChar = [] := by
      rw [List.dropWhile_eq_nil_iff]
      intro c hc
      exact List.all_eq_true.mp hblank c (List.mem_reverse.mp hc)
    simp [hnil, hblank]
  · have hne : rest.reverse.dropWhile isBlankChar ≠ [] := by
      intro hnil
      rw [List.dropWhile_eq_nil_iff] at hnil
      exact hblank (List.all_eq_true.mpr fun c hc => hnil c (List.mem_reverse.mpr hc))
    simp [hne, hblank]

/-- Trimming leaves a mark at the front of a line, unless the line loses it. -/
theorem prefix_trimChars_iff (mark rest : List Char) :
    mark <+: trimChars (mark ++ rest) ↔ ¬ LosesMark mark rest := by
  cases mark with
  | nil => simp [LosesMark]
  | cons c tail =>
    by_cases hblank : isBlankChar c = true
    · have hloses : LosesMark (c :: tail) rest := Or.inl ⟨c, rfl, hblank⟩
      refine iff_of_false ?_ (not_not_intro hloses)
      rintro ⟨later, hlater⟩
      have hhead : c ∈ (trimChars (c :: tail ++ rest)).head? := by
        rw [← hlater]
        rfl
      simp [isBlankChar_head_trimChars hhead] at hblank
    · have hdrop : (c :: tail ++ rest).dropWhile isBlankChar = c :: tail ++ rest := by
        simp [hblank]
      rw [trimChars_eq_rdropWhile, hdrop, rdropWhile_append]
      by_cases hrest : rest.all isBlankChar = true
      · rw [if_pos hrest]
        have hself : c :: tail <+: (c :: tail).rdropWhile isBlankChar ↔
            (c :: tail).rdropWhile isBlankChar = c :: tail := by
          constructor
          · intro h
            exact (List.rdropWhile_prefix ..).eq_of_length_le h.length_le
          · intro h
            exact ⟨[], by rw [List.append_nil, h]⟩
        rw [hself, List.rdropWhile_eq_self_iff]
        simp [LosesMark, hrest, hblank, List.getLast?_eq_some_getLast]
      · rw [if_neg hrest]
        simp [LosesMark, hrest, hblank]

/-- No line loses a mark that is trimmed itself. -/
theorem not_losesMark_of_trim_eq {mark : String} (h : trim mark = mark) (rest : List Char) :
    ¬ LosesMark mark.toList rest := by
  have htrimmed : trimChars mark.toList = mark.toList := by rw [← toList_trim, h]
  rintro (⟨c, hc, hblank⟩ | ⟨⟨c, hc, hblank⟩, -⟩)
  · rw [← htrimmed] at hc
    simp [isBlankChar_head_trimChars hc] at hblank
  · rw [← htrimmed] at hc
    simp [isBlankChar_getLast_trimChars hc] at hblank

end Text

namespace Script

variable {α : Type}

theorem startsWithMark_iff {mark text : String} :
    startsWithMark mark text = true ↔ mark ≠ "" ∧ mark.toList <+: text.toList := by
  simp [startsWithMark]

/-- A command begins with neither mark, once it is trimmed. -/
theorem not_prefix_of_isKept {settings : ScriptSettings} {line mark : String}
    (hkept : isKept settings line = true)
    (hmark : mark = settings.commentPrefix ∨ mark = settings.pauseDirective) (hne : mark ≠ "") :
    ¬ mark.toList <+: (Text.trim line).toList := by
  intro hbegins
  have hstarts : startsWithMark mark (Text.trim line) = true := startsWithMark_iff.mpr ⟨hne, hbegins⟩
  simp only [isKept, Bool.and_eq_true, Bool.not_eq_true'] at hkept
  rcases hmark with rfl | rfl
  · simp [hstarts] at hkept
  · simp [hstarts] at hkept

namespace Session

variable {x : Executor α} {settings : ScriptSettings} {s t : Session α}

/-- All lines that were handed over are commands. -/
def HandsKept (settings : ScriptSettings) (s : Session α) : Prop :=
  s.settings = settings ∧ ∀ script, ∀ line ∈ handedBy script s.story, isKept settings line = true

namespace HandsKept

theorem note (h : HandsKept settings s) {happening : Happening}
    (hother : ∀ script, happening.handedLine? script = none) :
    HandsKept settings (s.note happening) := by
  refine ⟨h.1, fun script line hline => ?_⟩
  rw [handedBy_note (hother script)] at hline
  exact h.2 script line hline

/-- Handing over a command hands over a command. -/
theorem perform {flight : Flight} {line : String} {panic? : Option String}
    (h : HandsKept settings s) (hstep : stepOf s.settings line = .command)
    (hp : s.perform x flight line = some (panic?, t)) : HandsKept settings t := by
  obtain ⟨-, hsettings, hhanded⟩ := perform_eq_some hp
  refine ⟨hsettings.trans h.1, fun script other hother => ?_⟩
  rw [hhanded, handedBy, List.filterMap_append, List.mem_append] at hother
  rcases hother with hother | hother
  · exact h.2 script other hother
  · have hsame : line = other := by
      by_cases hid : flight.id = script <;> simp [Happening.handedLine?, hid] at hother
      exact hother.symm
    rw [← hsame, ← h.1]
    exact stepOf_eq_command_iff.mp hstep

theorem finish (h : HandsKept settings s) (flight : Flight) (outcome : Outcome) :
    HandsKept settings (s.finish flight outcome) :=
  note (s := { s with flight? := none }) h fun _ => rfl

theorem resume {deadline : Option Nat} (h : HandsKept settings s)
    (hresume : s.resume x deadline = some t) : HandsKept settings t := by
  refine resume_invariant (P := HandsKept settings) ?_ ?_ ?_ ?_ ?_ ?_ h hresume
  · exact fun _ _ _ h => h
  · exact fun _ _ h => h.note fun _ => rfl
  · exact fun _ _ h => h.note fun _ => rfl
  · exact fun h hstep hperform => h.perform hstep hperform
  · exact fun _ _ h => h.finish _ _
  · exact fun _ _ _ h => h

/-- Whatever a host does, only commands are handed over. -/
theorem take {step : HostStep} {answer : Answer} (h : HandsKept settings s)
    (htake : step.take x s = some (answer, t)) : HandsKept settings t := by
  refine take_invariant (P := HandsKept settings) ?_ ?_ ?_ ?_ h htake
  · intro s source h
    rw [request]
    split
    · exact h.note fun _ => rfl
    · exact note (s := { s with flight? := _, cancelled := false }) h fun _ => rfl
  · intro s h
    exact note (s := { s with cancelled := true }) h fun _ => rfl
  · intro s t deadline h hwait
    exact resume (s := { s with waits := s.waits + 1 }) h hwait
  · exact fun _ h => h

end HandsKept

end Session

/-- The line does not carry the mark, or it is a line that loses the mark. -/
structure Unmarked (mark line : String) : Prop where
  trimmed : ¬ mark.toList <+: (Text.trim line).toList
  written : ∀ rest, line.toList = mark.toList ++ rest → Text.LosesMark mark.toList rest
  /-- A mark without white space at its ends is not carried at all. -/
  whole : Text.trim mark = mark → ¬ mark.toList <+: line.toList

/-- Trimming decides what a line loses. -/
theorem unmarked_of_trimmed {mark line : String} (h : ¬ mark.toList <+: (Text.trim line).toList) :
    Unmarked mark line := by
  have hwritten : ∀ rest, line.toList = mark.toList ++ rest →
      Text.LosesMark mark.toList rest := by
    intro rest hline
    rw [Text.toList_trim, hline, Text.prefix_trimChars_iff, not_not] at h
    exact h
  refine ⟨h, hwritten, ?_⟩
  rintro htrim ⟨rest, hrest⟩
  exact Text.not_losesMark_of_trim_eq htrim rest (hwritten rest hrest.symm)

namespace Session

/-- With admissible settings, and whatever steps a host takes from the start, a line that is handed
to the executor carries neither mark, or it is a line that loses the mark. -/
theorem unmarked_of_handed {x : Executor α} {own : α} {settings : Settings}
    {readFile : String → Option String} {waitWins : Nat → Bool} {steps : List HostStep}
    {answers : List Answer} {s : Session α} (hvalid : settings.validate = .ok ())
    (hsteps : takeAll x steps { new own settings.script readFile with waitWins } =
      some (answers, s))
    {script : Nat} {line : String} (hhanded : .handed script line ∈ s.story) :
    Text.isBlank line = false ∧
      ∀ mark ∈ [settings.script.commentPrefix, settings.script.pauseDirective],
        Unmarked mark line := by
  have hstart : HandsKept settings.script { new own settings.script readFile with waitWins } :=
    ⟨rfl, fun script line hline => by simp [handedBy, new] at hline⟩
  obtain ⟨-, hkept⟩ := takeAll_invariant HandsKept.take hstart hsteps
  have hline : isKept settings.script line = true := by
    refine hkept script line (List.mem_filterMap.mpr ⟨_, hhanded, ?_⟩)
    simp [Happening.handedLine?]
  refine ⟨?_, fun mark hmark => unmarked_of_trimmed ?_⟩
  · have hne : Text.trim line ≠ "" := by
      intro hempty
      simp [isKept, hempty] at hline
    rw [ne_eq, Text.trim_eq_empty_iff] at hne
    simpa using hne
  · obtain ⟨-, -, -, hcomment, hpause⟩ := settings.validate_eq_ok_iff.mp hvalid
    have hmark : mark = settings.script.commentPrefix ∨ mark = settings.script.pauseDirective := by
      simpa using hmark
    refine not_prefix_of_isKept hline hmark ?_
    rintro rfl
    rcases hmark with hmark | hmark
    · simp [← hmark, Text.isBlank] at hcomment
    · simp [← hmark, Text.isBlank] at hpause

theorem unmarked_of_handed_default : ∃ s,
    takeAll restless [.run (.lines ["// note", " pause(0)", " x // note"])]
      { new () ScriptSettings.default (fun _ => none) with waitWins := fun _ => true } =
        some ([.outcome (.completed 1)], s) ∧
    .handed 0 " x // note" ∈ s.story ∧ Unmarked "//" " x // note" ∧
    Unmarked "pause(" " x // note" := by
  have hrun : (takeAll restless [.run (.lines ["// note", " pause(0)", " x // note"])]
      { new () ScriptSettings.default (fun _ => none) with waitWins := fun _ => true }).map
        (fun (answers, s) => (answers, s.story.contains (.handed 0 " x // note"))) =
          some ([.outcome (.completed 1)], true) := by
    decide +kernel
  obtain ⟨⟨answers, s⟩, hsteps, he⟩ := Option.map_eq_some_iff.mp hrun
  obtain ⟨rfl, hcontains⟩ := Prod.mk.inj he
  have hhanded : .handed 0 " x // note" ∈ s.story := List.contains_iff_mem.mp hcontains
  have hvalid : Settings.default.validate = .ok () := by decide +kernel
  obtain ⟨-, hunmarked⟩ := unmarked_of_handed hvalid hsteps hhanded
  exact ⟨s, hsteps, hhanded, hunmarked "//" (by decide), hunmarked "pause(" (by decide)⟩

/-- Admissible settings whose marks have white space at their ends. -/
def spaced : Settings :=
  { Settings.default with
    script := { ScriptSettings.default with commentPrefix := " //", pauseDirective := "wait " } }

/-- Lines that begin with these marks are handed over. -/
theorem handed_spaced : spaced.validate = .ok () ∧
    " //".toList <+: " // note".toList ∧ "wait ".toList <+: "wait ".toList ∧ ∃ s,
    takeAll restless [.run (.lines [" // note", "wait "])]
      (new () spaced.script fun _ => none) = some ([.outcome (.completed 2)], s) ∧
    .handed 0 " // note" ∈ s.story ∧ .handed 0 "wait " ∈ s.story := by
  have hrun : (takeAll restless [.run (.lines [" // note", "wait "])]
      (new () spaced.script fun _ => none)).map (fun (answers, s) => (answers,
        s.story.contains (.handed 0 " // note") && s.story.contains (.handed 0 "wait "))) =
          some ([.outcome (.completed 2)], true) := by
    decide +kernel
  obtain ⟨⟨answers, s⟩, hsteps, he⟩ := Option.map_eq_some_iff.mp hrun
  obtain ⟨rfl, hcontains⟩ := Prod.mk.inj he
  obtain ⟨hcomment, hpause⟩ := (Bool.and_eq_true _ _).mp hcontains
  exact ⟨by decide +kernel, by decide, by decide, s, hsteps, List.contains_iff_mem.mp hcomment,
    List.contains_iff_mem.mp hpause⟩

end Session

end Script

end CommandConsole
