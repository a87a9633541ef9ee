import CommandConsole.Terminal.Display
import CommandConsole.Terminal.Screen
import Mathlib.Data.List.Induction

/-!
# What an interactive screen shows

An interactive screen writes control sequences, texts and line breaks to a terminal. Its transcript
tells what there should be to see: the rows of the messages and of the entered lines since
everything was cleared last, and below them the prompt with the pending input. Each step first
removes the prompt that the step before it left. So whatever the last row was, a step leaves the
terminal showing the transcript (`Follows.take`), and by induction every sequence of steps does.
-/

namespace CommandConsole.Terminal

open Display (blank)

/-- A control character. -/
def isControl (c : Char) : Bool :=
  c.toNat < 0x20 || (0x7F ≤ c.toNat && c.toNat < 0xA0)

namespace Screen

/-- A step of a screen. -/
inductive Step where
  | line (message : Message)
  | clear
  | setInput (text : String)
  | commitInput (entered : String)
  deriving DecidableEq, Repr

/-- What a screen writes in a step, and the screen behind it. -/
def take (s : Screen) : Step → String × Screen
  | .line message => (s.event (.shown message), s)
  | .clear => (s.event .cleared, s)
  | .setInput text => s.setInput text
  | .commitInput entered => s.commitInput entered

/-- What a screen writes in some steps, and the screen behind them. -/
def takeAll (steps : List Step) (s : Screen) : String × Screen :=
  steps.foldl (fun (text, s) step => ((text ++ (s.take step).1), (s.take step).2)) ("", s)

theorem takeAll_concat (steps : List Step) (step : Step) (s : Screen) :
    takeAll (steps ++ [step]) s =
      ((takeAll steps s).1 ++ ((takeAll steps s).2.take step).1,
        ((takeAll steps s).2.take step).2) := by
  simp [takeAll]

/-- A message has no control characters but line breaks, and an input has none. -/
def Step.IsPlain : Step → Prop
  | .line message => ∀ c ∈ message.text.toList, isControl c = true → c = '\n'
  | .clear => True
  | .setInput text => ∀ c ∈ text.toList, isControl c = false
  | .commitInput entered => ∀ c ∈ entered.toList, isControl c = false

/-- The rows that a step adds: those of a message, between its line breaks, or the one of a line
that was entered. -/
def Step.rows : Step → List (List Char)
  | .line message => message.text.toList.splitOn '\n'
  | .commitInput entered => [(prompt ++ entered).toList]
  | _ => []

/-- The input that is pending behind a step, if the step changes it. -/
def Step.input? : Step → Option String
  | .setInput text => some text
  | .commitInput _ => some ""
  | _ => none

end Screen

open Screen (Step prompt takeAll)

namespace Transcript

/-- The rows that were added since everything was cleared last. -/
def rows (steps : List Step) : List (List Char) :=
  (steps.reverse.takeWhile (· ≠ .clear)).reverse.flatMap Step.rows

/-- The pending input. -/
def pending (steps : List Step) : String :=
  (steps.reverse.findSome? Step.input?).getD ""

/-- The row with the prompt. -/
def promptRow (steps : List Step) : List Char :=
  (prompt ++ pending steps).toList

variable {steps : List Step} {step : Step}

@[simp] theorem rows_concat_clear : rows (steps ++ [.clear]) = [] := by
  simp [rows]

theorem rows_concat (h : step ≠ .clear) : rows (steps ++ [step]) = rows steps ++ step.rows := by
  simp [rows, h]

theorem pending_concat : pending (steps ++ [step]) = step.input?.getD (pending steps) := by
  cases h : step.input? <;> simp [pending, h]

end Transcript

namespace Display

/-- The display shows these rows and no more, the last of them apart, and the cursor is at the end
of the last one. -/
structure Shows (d : Display) (above : List (List Char)) (last : List Char) : Prop where
  cell : ∀ row column, d.cell row column = (above ++ [last])[row]?.bind (·[column]?)
  row : d.row = above.length
  column : d.column = last.length
  mode : d.mode = .text

variable {d : Display} {above : List (List Char)} {last : List Char} {c : Char}

theorem shows_blank : blank.Shows [] [] := by
  refine ⟨fun row column => ?_, rfl, rfl, rfl⟩
  cases row <;> simp [blank]

/-- The rows above the last one, the last one, and nothing below. -/
private theorem cell_eq (above : List (List Char)) (last : List Char) (row column : Nat) :
    (above ++ [last])[row]?.bind (·[column]?) =
      if row = above.length then last[column]? else above[row]?.bind (·[column]?) := by
  rcases Nat.lt_trichotomy row above.length with hlt | rfl | hgt
  · rw [List.getElem?_append_left hlt, if_neg (Nat.ne_of_lt hlt)]
  · simp
  · rw [if_neg (Nat.ne_of_gt hgt), List.getElem?_eq_none (l := above) (Nat.le_of_lt hgt),
      List.getElem?_eq_none (by simp; omega)]

/-- A character that is not a control character is added to the last row. -/
theorem Shows.feed (h : d.Shows above last) (hc : isControl c = false) :
    (d.feed c).Shows above (last ++ [c]) := by
  have hne : c ≠ '\x1b' ∧ c ≠ '\r' ∧ c ≠ '\n' := by
    refine ⟨?_, ?_, ?_⟩ <;> rintro rfl <;> simp [isControl] at hc
  have hput : d.feed c = d.put c := by simp [Display.feed, h.mode, hne]
  rw [hput]
  refine ⟨fun row column => ?_, h.row, ?_, h.mode⟩
  · simp only [put, h.cell, cell_eq, h.row, h.column]
    by_cases hrow : row = above.length
    · subst hrow
      rcases Nat.lt_trichotomy column last.length with hlt | rfl | hgt
      · simp [Nat.ne_of_lt hlt, List.getElem?_append_left hlt]
      · simp
      · have hnone : (last ++ [c])[column]? = none := by
          rw [List.getElem?_eq_none_iff, List.length_append, List.length_singleton]
          omega
        have hlast : last[column]? = none := List.getElem?_eq_none (Nat.le_of_lt hgt)
        simp [Nat.ne_of_gt hgt, hnone, hlast]
    · simp [hrow]
  · simp [put, h.column]

/-- Text without control characters is added to the last row. -/
theorem Shows.foldl_feed {cs : List Char} (h : d.Shows above last)
    (hcs : ∀ c ∈ cs, isControl c = false) : (cs.foldl Display.feed d).Shows above (last ++ cs) := by
  induction cs generalizing d last with
  | nil => simpa using h
  | cons c cs ih =>
    obtain ⟨hc, hcs⟩ := List.forall_mem_cons.mp hcs
    have hrest := ih (h.feed hc) hcs
    rwa [List.append_assoc] at hrest

/-- A line break ends the last row and begins an empty one. -/
theorem Shows.rowBreak (h : d.Shows above last) :
    (d.write Screen.rowBreak).Shows (above ++ [last]) [] := by
  have hwrite : d.write Screen.rowBreak = { d with row := d.row + 1, column := 0 } := by
    simp [write, Screen.rowBreak, Display.feed, h.mode]
  rw [hwrite]
  refine ⟨fun row column => ?_, by simp [h.row], rfl, h.mode⟩
  rw [h.cell, cell_eq (above ++ [last])]
  split
  · next hrow =>
    rw [List.getElem?_eq_none (by simp [hrow])]
    simp
  · rfl

/-- The effect of text is that of its parts one after the other. -/
theorem write_append (first second : String) (d : Display) :
    d.write (first ++ second) = (d.write first).write second := by
  simp [write]

theorem Shows.write {text : String} (h : d.Shows above last)
    (htext : ∀ c ∈ text.toList, isControl c = false) :
    (d.write text).Shows above (last ++ text.toList) :=
  h.foldl_feed htext

/-- The last row is emptied, whatever it is. -/
theorem Shows.emptyRow (h : d.Shows above last) :
    (d.write (Screen.toLineStart ++ Screen.clearRow)).Shows above [] := by
  have hwrite : d.write (Screen.toLineStart ++ Screen.clearRow) = { d with column := 0 }.clearRow := by
    simp [Display.write, Screen.toLineStart, Screen.clearRow, Display.feed, h.mode, isFinal, numbers,
      control, goTo, clearRow]
  rw [hwrite]
  refine ⟨fun row column => ?_, h.row, rfl, h.mode⟩
  simp only [clearRow, h.cell, h.row, cell_eq]
  split <;> simp

/-- Everything is removed, whatever it is. -/
theorem Shows.empty (h : d.Shows above last) :
    (d.write (Screen.clearAll ++ Screen.toCorner)).Shows [] [] := by
  have hwrite : d.write (Screen.clearAll ++ Screen.toCorner) = blank := by
    simp [Display.write, Screen.clearAll, Screen.toCorner, Display.feed, h.mode, isFinal, numbers,
      control, goTo, clearAll, blank]
  rw [hwrite]
  exact shows_blank

/-- The parameters of a control sequence are collected. -/
theorem foldl_feed_parameters {cs parameters : List Char} (hmode : d.mode = .sequence parameters)
    (hcs : ∀ c ∈ cs, isFinal c = false) :
    cs.foldl Display.feed d = { d with mode := .sequence (parameters ++ cs) } := by
  induction cs generalizing d parameters with
  | nil => simp [← hmode]
  | cons c cs ih =>
    obtain ⟨hc, hcs⟩ := List.forall_mem_cons.mp hcs
    have hfeed : d.feed c = { d with mode := .sequence (parameters ++ [c]) } := by
      simp [Display.feed, hmode, hc]
    rw [List.foldl_cons, hfeed, ih rfl hcs, List.append_assoc]
    rfl

/-- A control sequence that sets colours changes nothing that is shown. -/
theorem foldl_feed_colours {parameters : List Char} (h : d.mode = .text)
    (hparameters : ∀ c ∈ parameters, isFinal c = false) :
    (['\x1b', '['] ++ parameters ++ ['m']).foldl Display.feed d = d := by
  have hbegin : ['\x1b', '['].foldl Display.feed d = { d with mode := .sequence [] } := by
    simp [Display.feed, h]
  rw [List.foldl_append, List.foldl_append, hbegin, foldl_feed_parameters rfl hparameters]
  simp [Display.feed, isFinal, control, ← h]

theorem foldl_feed_setColour (h : d.mode = .text) (code : Nat) :
    (setColour code).foldl Display.feed d = d := by
  refine foldl_feed_colours h fun c hc => ?_
  have hdigit := Nat.isDigit_of_mem_toDigits (by decide) (by decide) hc
  have hle : c.toNat ≤ 57 := by
    simp only [Char.isDigit, Bool.and_eq_true, decide_eq_true_eq] at hdigit
    exact hdigit.2
  simp only [isFinal, Bool.and_eq_false_iff, decide_eq_false_iff_not]
  omega

theorem foldl_feed_resetColour (h : d.mode = .text) : resetColour.foldl Display.feed d = d := by
  have hzero : ∀ c ∈ ['0'], isFinal c = false := by simp [isFinal]
  exact foldl_feed_colours h hzero

/-- Nothing is added to the first row. -/
theorem modifyHead_nil_append (rows : List (List Char)) : rows.modifyHead ([] ++ ·) = rows := by
  cases rows <;> rfl

/-- The text of a message is split at its line breaks, its first row added to the last one. -/
theorem Shows.breakRows {cs : List Char} (h : d.Shows above last)
    (hcs : ∀ c ∈ cs, isControl c = true → c = '\n') :
    ∃ rows final, (cs.splitOn '\n').modifyHead (last ++ ·) = rows ++ [final] ∧
      ((cs.flatMap fun c => if c = '\n' then Screen.rowBreak.toList else [c]).foldl
        Display.feed d).Shows (above ++ rows) final := by
  -- a line break leaves an empty last row, and any other character a longer one, so the rest of the
  -- text may find any last row
  induction cs generalizing d above last with
  | nil => exact ⟨[], last, by simp, by simpa using h⟩
  | cons c cs ih =>
    obtain ⟨hc, hcs⟩ := List.forall_mem_cons.mp hcs
    rw [List.flatMap_cons, List.foldl_append, List.splitOn_cons_eq_if_modifyHead]
    by_cases hbreak : c = '\n'
    · obtain ⟨rows, final, hrows, hshows⟩ := ih h.rowBreak hcs
      rw [modifyHead_nil_append] at hrows
      refine ⟨last :: rows, final, ?_, ?_⟩
      · rw [if_pos (by simpa using hbreak), hrows]
        simp
      · rw [if_pos hbreak]
        simpa [Display.write] using hshows
    · have hplain : isControl c = false := by
        cases hcontrol : isControl c with
        | false => rfl
        | true => exact absurd (hc hcontrol) hbreak
      obtain ⟨rows, final, hrows, hshows⟩ := ih (h.feed hplain) hcs
      refine ⟨rows, final, ?_, ?_⟩
      · rw [if_neg (by simpa using hbreak), List.modifyHead_modifyHead, ← hrows]
        simp [Function.comp_def]
      · rw [if_neg hbreak]
        exact hshows

end Display

section Painting

/-- Text without escape characters is painted as it is. -/
theorem keepColour_eq {colour cs : List Char} (h : '\x1b' ∉ cs) : keepColour colour cs = cs := by
  fun_induction keepColour colour cs with
  | case1 rest => simp at h
  | case2 c rest _ ih => rw [ih fun hmem => h (List.mem_cons_of_mem _ hmem)]
  | case3 => rfl

/-- Painted text shows what the text alone does. -/
theorem Display.write_paint {d : Display} {message : Message} (coloured : Bool)
    (hbefore : d.mode = .text) (hbehind : (d.write message.text).mode = .text)
    (hescape : '\x1b' ∉ message.text.toList) :
    d.write (paint coloured message) = d.write message.text := by
  unfold paint
  split
  · next code _ =>
    rw [write, String.toList_ofList, keepColour_eq hescape, List.foldl_append, List.foldl_append,
      foldl_feed_setColour hbefore]
    exact foldl_feed_resetColour hbehind
  · rfl

theorem escape_notMem_breakRows {text : String}
    (htext : ∀ c ∈ text.toList, isControl c = true → c = '\n') :
    '\x1b' ∉ (Screen.breakRows text).toList := by
  rw [Screen.breakRows, String.toList_ofList, List.mem_flatMap]
  rintro ⟨c, hc, hmem⟩
  split at hmem
  · simp [Screen.rowBreak] at hmem
  · rw [List.mem_singleton] at hmem
    subst hmem
    simpa using htext _ hc rfl

/-- The rows of a message are shown behind those above. -/
theorem Display.Shows.message {d : Display} {above : List (List Char)} {message : Message}
    (coloured : Bool) (h : d.Shows above [])
    (hmessage : ∀ c ∈ message.text.toList, isControl c = true → c = '\n') :
    (d.write (paint coloured { message with text := Screen.breakRows message.text } ++
      Screen.rowBreak)).Shows (above ++ message.text.toList.splitOn '\n') [] := by
  obtain ⟨rows, final, hrows, hshows⟩ := h.breakRows hmessage
  rw [Display.modifyHead_nil_append] at hrows
  have hwrite : (d.write (Screen.breakRows message.text)).Shows (above ++ rows) final := by
    rw [Display.write, Screen.breakRows, String.toList_ofList]
    exact hshows
  have hescape : '\x1b' ∉ (Screen.breakRows message.text).toList := escape_notMem_breakRows hmessage
  have hpaint : d.write (paint coloured { message with text := Screen.breakRows message.text }) =
      d.write (Screen.breakRows message.text) := write_paint coloured h.mode hwrite.mode hescape
  rw [write_append, hpaint, hrows, ← List.append_assoc]
  exact hwrite.rowBreak

end Painting

section Steps

variable {steps : List Step} {step : Step} {s : Screen} {d : Display} {last : List Char}

/-- An interactive screen and a display behind some steps, which leave this last row. -/
structure Follows (steps : List Step) (s : Screen) (d : Display) (last : List Char) : Prop where
  interactive : s.interactive = true
  input : s.input = Transcript.pending steps
  plain : ∀ c ∈ s.input.toList, isControl c = false
  shows : d.Shows (Transcript.rows steps) last

theorem follows_nil (coloured : Bool) : Follows [] (Screen.new true coloured) blank [] :=
  ⟨rfl, rfl, by simp [Screen.new], Display.shows_blank⟩

/-- The prompt is drawn on an empty row. -/
theorem Display.Shows.prompt {above : List (List Char)} {input : String} (h : d.Shows above [])
    (hinput : ∀ c ∈ input.toList, isControl c = false) :
    (d.write (prompt ++ input)).Shows above (prompt ++ input).toList := by
  have hprompt : ∀ c ∈ Screen.prompt.toList, isControl c = false := by
    simp [Screen.prompt, isControl]
  refine h.write fun c hc => ?_
  rw [String.toList_append, List.mem_append] at hc
  exact hc.elim (hprompt c) (hinput c)

/-- The prompt and the input behind what a step writes show the transcript, if the rest of it stands
above an empty row. -/
theorem follows_of_body {t : Screen} {body : String} (hinteractive : t.interactive = true)
    (hinput : Transcript.pending steps = t.input)
    (hplain : ∀ c ∈ t.input.toList, isControl c = false)
    (hbody : (d.write body).Shows (Transcript.rows steps) []) :
    Follows steps t (d.write (body ++ (prompt ++ t.input))) (Transcript.promptRow steps) := by
  refine ⟨hinteractive, hinput.symm, hplain, ?_⟩
  rw [Display.write_append, Transcript.promptRow, hinput]
  exact hbody.prompt hplain

/-- A message takes the place of the prompt, which is drawn again below. -/
theorem Follows.line (h : Follows steps s d last) {message : Message}
    (hmessage : (Step.line message).IsPlain) :
    Follows (steps ++ [.line message]) (s.take (.line message)).2
      (d.write (s.take (.line message)).1) (Transcript.promptRow (steps ++ [.line message])) := by
  have hwritten : (s.take (.line message)).1 = Screen.toLineStart ++ Screen.clearRow ++
      (paint s.coloured { message with text := Screen.breakRows message.text } ++
        Screen.rowBreak) ++ (prompt ++ s.input) := by
    simp [Screen.take, Screen.event, Screen.line, h.interactive, String.append_assoc]
  have hinput : Transcript.pending (steps ++ [.line message]) = s.input := by
    rw [Transcript.pending_concat, h.input]
    rfl
  have hrows : Transcript.rows (steps ++ [.line message]) =
      Transcript.rows steps ++ message.text.toList.splitOn '\n' :=
    Transcript.rows_concat (by simp)
  rw [hwritten]
  refine follows_of_body h.interactive hinput h.plain ?_
  rw [Display.write_append, hrows]
  exact h.shows.emptyRow.message s.coloured hmessage

/-- The terminal is emptied but for the prompt and the input. -/
theorem Follows.clear (h : Follows steps s d last) :
    Follows (steps ++ [.clear]) (s.take .clear).2 (d.write (s.take .clear).1)
      (Transcript.promptRow (steps ++ [.clear])) := by
  have hwritten : (s.take .clear).1 =
      Screen.clearAll ++ Screen.toCorner ++ (prompt ++ s.input) := by
    simp [Screen.take, Screen.event, Screen.clear, h.interactive, String.append_assoc]
  have hinput : Transcript.pending (steps ++ [.clear]) = s.input := by
    rw [Transcript.pending_concat, h.input]
    rfl
  rw [hwritten]
  refine follows_of_body h.interactive hinput h.plain ?_
  rw [Transcript.rows_concat_clear]
  exact h.shows.empty

/-- The prompt is drawn again with another input. -/
theorem Follows.setInput (h : Follows steps s d last) {text : String}
    (htext : (Step.setInput text).IsPlain) :
    Follows (steps ++ [.setInput text]) (s.take (.setInput text)).2
      (d.write (s.take (.setInput text)).1) (Transcript.promptRow (steps ++ [.setInput text])) := by
  have hwritten : (s.take (.setInput text)).1 =
      Screen.toLineStart ++ Screen.clearRow ++ (prompt ++ text) := by
    simp [Screen.take, Screen.setInput, String.append_assoc]
  have hinput : Transcript.pending (steps ++ [.setInput text]) = text := by
    rw [Transcript.pending_concat]
    rfl
  have hrows : Transcript.rows (steps ++ [.setInput text]) = Transcript.rows steps ++ [] :=
    Transcript.rows_concat (by simp)
  rw [hwritten]
  refine follows_of_body h.interactive hinput htext ?_
  rw [hrows, List.append_nil]
  exact h.shows.emptyRow

/-- The entered line stays in its row behind the prompt, which is drawn again below. -/
theorem Follows.commitInput (h : Follows steps s d last) {entered : String}
    (hentered : (Step.commitInput entered).IsPlain) :
    Follows (steps ++ [.commitInput entered]) (s.take (.commitInput entered)).2
      (d.write (s.take (.commitInput entered)).1)
      (Transcript.promptRow (steps ++ [.commitInput entered])) := by
  have hwritten : (s.take (.commitInput entered)).1 = Screen.toLineStart ++ Screen.clearRow ++
      (prompt ++ entered) ++ Screen.rowBreak ++ (prompt ++ "") := by
    cases hcoloured : s.coloured <;>
      simp [Screen.take, Screen.commitInput, paint, Message.normal, MessageKind.colour?,
        hcoloured, String.append_assoc]
  have hinput : Transcript.pending (steps ++ [.commitInput entered]) = "" := by
    rw [Transcript.pending_concat]
    rfl
  have hrows : Transcript.rows (steps ++ [.commitInput entered]) =
      Transcript.rows steps ++ [(prompt ++ entered).toList] :=
    Transcript.rows_concat (by simp)
  rw [hwritten]
  refine follows_of_body h.interactive hinput (by simp [Screen.take, Screen.commitInput]) ?_
  rw [Display.write_append _ Screen.rowBreak,
    Display.write_append (Screen.toLineStart ++ Screen.clearRow), hrows]
  exact (h.shows.emptyRow.prompt hentered).rowBreak

/-- Whatever the last row was, behind a step the screen shows the transcript. -/
theorem Follows.take (h : Follows steps s d last) (hstep : step.IsPlain) :
    Follows (steps ++ [step]) (s.take step).2 (d.write (s.take step).1)
      (Transcript.promptRow (steps ++ [step])) := by
  cases step with
  | line message => exact h.line hstep
  | clear => exact h.clear
  | setInput text => exact h.setInput hstep
  | commitInput entered => exact h.commitInput hstep

/-- Some steps leave the transcript, and the first of them the prompt. -/
theorem follows_takeAll (coloured : Bool) (hplain : ∀ step ∈ steps, step.IsPlain) :
    ∃ last, Follows steps (takeAll steps (Screen.new true coloured)).2
      (blank.write (takeAll steps (Screen.new true coloured)).1) last ∧
      (steps ≠ [] → last = Transcript.promptRow steps) := by
  induction steps using List.reverseRec with
  | nil => exact ⟨[], follows_nil coloured, fun h => absurd rfl h⟩
  | append_singleton steps step ih =>
    obtain ⟨last, hfollows, -⟩ := ih fun step hmem => hplain step (List.mem_append_left _ hmem)
    have hstep : step.IsPlain := hplain step (by simp)
    refine ⟨_, ?_, fun _ => rfl⟩
    rw [Screen.takeAll_concat, Display.write_append]
    exact hfollows.take hstep

/-- Behind every step, an interactive screen shows the rows that were added since everything was
cleared last, then the prompt with the pending input, and the cursor is behind it. -/
theorem shows_transcript (coloured : Bool) (hne : steps ≠ []) (hplain : ∀ step ∈ steps, step.IsPlain) :
    (blank.write (takeAll steps (Screen.new true coloured)).1).Shows (Transcript.rows steps)
      (Transcript.promptRow steps) := by
  obtain ⟨last, hfollows, hlast⟩ := follows_takeAll coloured hplain
  rw [← hlast hne]
  exact hfollows.shows

/-- A message of two rows goes between the line that was entered before it and the prompt, and what
was shown before the clearing is gone. -/
theorem shows_transcript_message_behind_input :
    let steps : List Step := [.line (.normal "gone"), .clear, .setInput "ru", .commitInput "run",
      .setInput "st", .line (.error "one\ntwo")]
    steps ≠ [] ∧ (∀ step ∈ steps, step.IsPlain) ∧
      (blank.write (takeAll steps (Screen.new true true)).1).Shows
        ["> run".toList, "one".toList, "two".toList] "> st".toList := by
  intro steps
  have hne : steps ≠ [] := by decide
  have hplain : ∀ step ∈ steps, step.IsPlain := by
    simp [steps, Step.IsPlain, isControl, Message.normal, Message.error]
  have hrows : Transcript.rows steps = ["> run".toList, "one".toList, "two".toList] := by
    decide +kernel
  have hprompt : Transcript.promptRow steps = "> st".toList := by decide +kernel
  refine ⟨hne, hplain, ?_⟩
  rw [← hrows, ← hprompt]
  exact shows_transcript true hne hplain

end Steps

end CommandConsole.Terminal
