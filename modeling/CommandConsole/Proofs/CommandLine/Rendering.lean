import CommandConsole.CommandLine.Rendering

/-!
# Renderers write everything

What a renderer has written, with what it will write for the events in the channel, is the output
for the events that were sent. It ends with an empty channel that takes no more events. So the text
behind a renderer that has ended is the output for all events, however it and the console took
turns, and a renderer always comes to its end once the channel is closed.
-/

namespace CommandConsole.CommandLine

open Terminal (Screen)

section Output

variable {coloured : Bool}

@[simp] theorem outputOf_nil : outputOf coloured [] = "" := by
  simp [outputOf]

theorem outputOf_append (events more : List Event) :
    outputOf coloured (events ++ more) = outputOf coloured events ++ outputOf coloured more := by
  simp [outputOf]

theorem outputOf_cons (event : Event) (events : List Event) :
    outputOf coloured (event :: events) =
      (Screen.new false coloured).event event ++ outputOf coloured events := by
  simp [outputOf]

/-- The output for the events of some parts is that for each part, one behind the other. -/
theorem outputOf_flatMap {α : Type} (f : α → List Event) (parts : List α) :
    outputOf coloured (parts.flatMap f) =
      String.join (parts.map fun part => outputOf coloured (f part)) := by
  induction parts with
  | nil => simp
  | cons part parts ih => rw [List.flatMap_cons, outputOf_append, ih, List.map_cons, String.join_cons]

end Output

namespace Rendering

variable {coloured : Bool} {events : List Event} {step : Step} {steps : List Step} {r t : Rendering}

theorem sent_append (steps more : List Step) : sent (steps ++ more) = sent steps ++ sent more :=
  List.filterMap_append

theorem sent_map_send (events : List Event) : sent (events.map .send) = events := by
  rw [sent, List.filterMap_map]
  exact List.filterMap_some

theorem sent_replicate_render (n : Nat) : sent (List.replicate n .render) = [] := by
  rw [sent, List.filterMap_eq_nil_iff]
  intro step hmem
  rw [List.eq_of_mem_replicate hmem]

/-- The renderer has written the events that were sent up to those in the channel. -/
structure Keeping (coloured : Bool) (events : List Event) (r : Rendering) : Prop where
  written : r.written ++ outputOf coloured r.queue = outputOf coloured events
  ended : r.isOver = true → r.queue = [] ∧ r.isClosed = true

theorem keeping_start : Keeping coloured [] start :=
  ⟨by simp [start], by simp [start]⟩

theorem Keeping.take (h : Keeping coloured events r)
    (htake : r.take (.new false coloured) step = some t) :
    Keeping coloured (events ++ sent [step]) t := by
  obtain ⟨hwritten, hover⟩ := h
  cases step with
  | send event =>
    simp only [Rendering.take] at htake
    split at htake
    · cases htake
    · next hopen =>
      obtain rfl := Option.some.inj htake
      refine ⟨?_, fun h => absurd (hover h).2 hopen⟩
      rw [outputOf_append, ← String.append_assoc, hwritten, outputOf_append]
      rfl
  | close =>
    obtain rfl := Option.some.inj htake
    exact ⟨hwritten.trans (by simp [sent]), fun h => ⟨(hover h).1, rfl⟩⟩
  | render =>
    have hnone : events ++ sent [.render] = events := List.append_nil events
    rw [hnone]
    simp only [Rendering.take] at htake
    split at htake
    · cases htake
    · next hgoing =>
      split at htake
      · next event queue hqueue =>
        obtain rfl := Option.some.inj htake
        refine ⟨?_, fun h => absurd h hgoing⟩
        rw [← hwritten, hqueue, outputOf_cons, String.append_assoc]
      · next hempty =>
        split at htake
        · next hclosed =>
          obtain rfl := Option.some.inj htake
          exact ⟨hwritten, fun _ => ⟨hempty, hclosed⟩⟩
        · cases htake

theorem Keeping.takeAll (h : Keeping coloured events r)
    (htake : Rendering.takeAll (.new false coloured) steps r = some t) :
    Keeping coloured (events ++ sent steps) t := by
  induction steps generalizing events r with
  | nil =>
    obtain rfl := Option.some.inj htake
    simpa [sent] using h
  | cons step steps ih =>
    obtain ⟨mid, hmid, hrest⟩ := Option.bind_eq_some_iff.mp htake
    rw [← List.singleton_append, sent_append, ← List.append_assoc]
    exact ih (h.take hmid) hrest

theorem takeAll_append (screen : Screen) (steps more : List Step) (r : Rendering) :
    takeAll screen (steps ++ more) r = (takeAll screen steps r).bind (takeAll screen more) := by
  induction steps generalizing r with
  | nil => rfl
  | cons step steps ih =>
    rw [List.cons_append, takeAll, takeAll, Option.bind_assoc]
    exact congrArg _ (funext ih)

/-- Any events can be sent while the channel is open. -/
theorem takeAll_send (screen : Screen) (hopen : r.isClosed = false) (events : List Event) :
    takeAll screen (events.map .send) r = some { r with queue := r.queue ++ events } := by
  induction events generalizing r with
  | nil => simp [takeAll]
  | cons event events ih =>
    have hsend : r.take screen (.send event) = some { r with queue := r.queue ++ [event] } := by
      rw [take, if_neg (by simp [hopen])]
    have hrest := ih (r := { r with queue := r.queue ++ [event] }) hopen
    rw [List.map_cons, takeAll, hsend, Option.bind_some, hrest]
    simp

/-- Behind a closed channel, the renderer ends when it has had a turn for each event in it and one
more. -/
theorem takeAll_render (screen : Screen) (hclosed : r.isClosed = true) (hgoing : r.isOver = false) :
    ∃ t, takeAll screen (List.replicate (r.queue.length + 1) .render) r = some t ∧
      t.isOver = true := by
  generalize hqueue : r.queue = queue
  induction queue generalizing r with
  | nil =>
    refine ⟨{ r with isOver := true }, ?_, rfl⟩
    simp [takeAll, take, hgoing, hqueue, hclosed]
  | cons event queue ih =>
    obtain ⟨t, ht, hover⟩ := ih
      (r := { r with queue, written := r.written ++ screen.event event }) hclosed hgoing rfl
    refine ⟨t, ?_, hover⟩
    have hrender : r.take screen .render =
        some { r with queue, written := r.written ++ screen.event event } := by
      simp [take, hgoing, hqueue]
    rw [List.length_cons, List.replicate_succ, takeAll, hrender, Option.bind_some]
    exact ht

end Rendering

open Rendering in
/-- However the console and its renderer take turns, the text is the output for all events. -/
theorem renders_iff {coloured : Bool} {events : List Event} {text : String} :
    Renders (.new false coloured) events text ↔ text = outputOf coloured events := by
  constructor
  · rintro ⟨steps, r, htake, rfl, hover, rfl⟩
    have hkeeping := keeping_start.takeAll htake
    obtain ⟨hempty, -⟩ := hkeeping.ended hover
    have hwritten := hkeeping.written
    rw [hempty] at hwritten
    simpa using hwritten
  · rintro rfl
    let full : Rendering := { start with queue := events, isClosed := true }
    obtain ⟨r, hrender, hover⟩ := takeAll_render (r := full) (.new false coloured) rfl rfl
    have hsend := takeAll_send (.new false coloured) (r := start) rfl events
    let steps : List Step :=
      events.map .send ++ ([.close] ++ List.replicate (events.length + 1) .render)
    have htake : takeAll (.new false coloured) steps start = some r := by
      rw [takeAll_append, hsend, Option.bind_some]
      exact hrender
    have hsent : sent steps = events := by
      rw [sent_append, sent_map_send, sent_append, sent_replicate_render]
      exact List.append_nil events
    have hkeeping := keeping_start.takeAll htake
    obtain ⟨hempty, -⟩ := hkeeping.ended hover
    have hwritten := hkeeping.written
    rw [hempty, hsent] at hwritten
    exact ⟨steps, r, htake, hsent, hover, by simpa using hwritten⟩

end CommandConsole.CommandLine
