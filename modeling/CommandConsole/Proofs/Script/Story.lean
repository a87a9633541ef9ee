import CommandConsole.Script.Story
import Mathlib.Data.List.Induction

/-!
# Coherent stories

In a coherent story each happening fits what came before it: a script is accepted only when none is
underway, it reaches lines, announces pauses and hands lines over only while it is underway and not
cancelled, and it ends with the outcome that its own part of the story bears out. So at every moment
at most one script is underway, the parts of two scripts never mix, nothing is told of a script
behind its end, and each script ends once.
-/

namespace CommandConsole.Script

namespace Happening

/-- The number of the script that was accepted. -/
def acceptedId? : Happening → Option Nat
  | accepted script _ => some script
  | _ => none

/-- The number of the script that ended. -/
def endedId? : Happening → Option Nat
  | ended script _ _ => some script
  | _ => none

/-- The line that a script came to. -/
def reachedLine? (script : Nat) : Happening → Option String
  | reached other line => if other = script then some line else none
  | _ => none

/-- The line that a script handed over. -/
def handedLine? (script : Nat) : Happening → Option String
  | handed other line => if other = script then some line else none
  | _ => none

/-- What a script itself says. -/
def spokenBy (script : Nat) : Happening → List Message
  | paused other announcement => if other = script then [announcement] else []
  | handed other line => if other = script then [echo line] else []
  | ended other source outcome => if other = script then [outcome.closing source] else []
  | _ => []

/-- The number of the script that it tells of. -/
def script? : Happening → Option Nat
  | accepted script _ | reached script _ | paused script _ | handed script _ | returned script _
  | ended script _ _ => some script
  | cancelAsked script? => script?
  | rejected _ | reported _ => none

end Happening

/-- The scripts that were accepted and have not ended. -/
def underway (story : List Happening) : List Nat :=
  (story.filterMap Happening.acceptedId?).filter (· ∉ story.filterMap Happening.endedId?)

/-- The lines that a script came to. -/
def reachedBy (script : Nat) (story : List Happening) : List String :=
  story.filterMap (Happening.reachedLine? script)

/-- The lines that a script handed over. -/
def handedBy (script : Nat) (story : List Happening) : List String :=
  story.filterMap (Happening.handedLine? script)

/-- How often the executor returned to a script without a panic. -/
def returnsTo (script : Nat) (story : List Happening) : Nat :=
  story.count (.returned script none)

/-- No line of the script has panicked. -/
def Unharmed (script : Nat) (story : List Happening) : Prop :=
  ∀ text, .returned script (some text) ∉ story

/-- The script is underway, and nobody has asked for it to be cancelled. -/
def UnderwayFreely (script : Nat) (story : List Happening) : Prop :=
  underway story = [script] ∧ .cancelAsked (some script) ∉ story

/-- The outcome of a script is borne out by the story before its end. -/
def Verdict (lines? : Source → Except ScriptError (List String)) (script : Nat) (source : Source)
    (story : List Happening) : Outcome → Prop
  | .completed n => n = returnsTo script story ∧ lines? source = .ok (reachedBy script story)
  | .cancelled n => n = returnsTo script story ∧ .cancelAsked (some script) ∈ story
  | .failed text => (∃ cause, lines? source = .error cause ∧ text = cause.message) ∨
      ∃ panic, .returned script (some panic) ∈ story ∧ text = panicText panic
  | .rejected => False

/-- A happening fits the story before it. -/
def Fits (lines? : Source → Except ScriptError (List String)) (story : List Happening) :
    Happening → Prop
  | .accepted script _ => underway story = [] ∧ script = story.countP Happening.isAcceptance
  | .rejected _ => ∃ script, underway story = [script]
  | .cancelAsked script? => underway story = script?.toList ∧
      ∀ script ∈ script?, Unharmed script story
  | .reached script _ => UnderwayFreely script story
  | .paused script _ => UnderwayFreely script story
  | .handed script _ => UnderwayFreely script story
  | .returned script _ => underway story = [script]
  | .reported _ => True
  | .ended script source outcome => underway story = [script] ∧ .accepted script source ∈ story ∧
      Verdict lines? script source story outcome

/-- Each happening of the story fits what came before it. -/
inductive Coherent (lines? : Source → Except ScriptError (List String)) : List Happening → Prop
  | nil : Coherent lines? []
  | snoc {story happening} : Coherent lines? story → Fits lines? story happening →
      Coherent lines? (story ++ [happening])

section Snoc

variable (story : List Happening) {happening : Happening}

theorem underway_snoc_accepted (script : Nat) (source : Source)
    (h : script ∉ story.filterMap Happening.endedId?) :
    underway (story ++ [.accepted script source]) = underway story ++ [script] := by
  simp only [underway, List.filterMap_append, List.filterMap_cons, Happening.acceptedId?,
    Happening.endedId?, List.filterMap_nil, List.append_nil, List.filter_append, List.filter_cons,
    h, not_false_eq_true, decide_true, if_true, List.filter_nil]

theorem underway_snoc_ended (script : Nat) (source : Source) (outcome : Outcome) :
    underway (story ++ [.ended script source outcome]) = (underway story).filter (· ≠ script) := by
  simp only [underway, List.filterMap_append, List.filterMap_cons, Happening.acceptedId?,
    Happening.endedId?, List.filterMap_nil, List.append_nil, List.filter_filter, List.mem_append,
    List.mem_singleton, not_or, Bool.decide_and]
  exact List.filter_congr fun _ _ => Bool.and_comm ..

theorem underway_snoc_other (ha : happening.acceptedId? = none) (he : happening.endedId? = none) :
    underway (story ++ [happening]) = underway story := by
  simp [underway, ha, he]

@[simp] theorem reachedBy_snoc_reached (script : Nat) (line : String) :
    reachedBy script (story ++ [.reached script line]) = reachedBy script story ++ [line] := by
  simp [reachedBy, Happening.reachedLine?]

theorem reachedBy_snoc_other {script : Nat} (h : happening.reachedLine? script = none) :
    reachedBy script (story ++ [happening]) = reachedBy script story := by
  simp [reachedBy, h]

@[simp] theorem handedBy_snoc_handed (script : Nat) (line : String) :
    handedBy script (story ++ [.handed script line]) = handedBy script story ++ [line] := by
  simp [handedBy, Happening.handedLine?]

theorem handedBy_snoc_other {script : Nat} (h : happening.handedLine? script = none) :
    handedBy script (story ++ [happening]) = handedBy script story := by
  simp [handedBy, h]

end Snoc

namespace Coherent

variable {lines? : Source → Except ScriptError (List String)} {story before after : List Happening}
  {happening : Happening} {script : Nat}

theorem snoc_iff : Coherent lines? (story ++ [happening]) ↔
    Coherent lines? story ∧ Fits lines? story happening := by
  constructor
  · intro h
    generalize he : story ++ [happening] = whole at h
    cases h with
    | nil => simp at he
    | snoc h hfits =>
      obtain ⟨rfl, hlast⟩ := List.append_inj' he rfl
      obtain rfl := List.singleton_inj.mp hlast
      exact ⟨h, hfits⟩
  · rintro ⟨h, hfits⟩
    exact h.snoc hfits

/-- A story is coherent up to each of its moments. -/
theorem prefix_of_append (h : Coherent lines? (before ++ after)) : Coherent lines? before := by
  induction after using List.reverseRecOn with
  | nil => simpa using h
  | append_singleton after happening ih =>
    rw [← List.append_assoc] at h
    exact ih (snoc_iff.mp h).1

/-- Each happening of a coherent story fits what came before it. -/
theorem fits (h : Coherent lines? (before ++ happening :: after)) :
    Fits lines? before happening := by
  rw [← List.singleton_append, ← List.append_assoc] at h
  exact (snoc_iff.mp h.prefix_of_append).2

/-- Scripts are numbered as they are accepted. -/
theorem acceptedIds_eq_range (h : Coherent lines? story) :
    story.filterMap Happening.acceptedId? = List.range (story.countP Happening.isAcceptance) := by
  induction h with
  | nil => rfl
  | @snoc story happening _ hfits ih =>
    cases happening with
    | accepted script source =>
      simp [ih, Happening.acceptedId?, Happening.isAcceptance, List.range_succ, hfits.2]
    | _ => simp [ih, Happening.acceptedId?, Happening.isAcceptance]

theorem mem_acceptedIds_iff (h : Coherent lines? story) :
    script ∈ story.filterMap Happening.acceptedId? ↔
      script < story.countP Happening.isAcceptance := by
  rw [h.acceptedIds_eq_range, List.mem_range]

theorem lt_of_mem_underway (h : Coherent lines? story) (hmem : script ∈ underway story) :
    script < story.countP Happening.isAcceptance :=
  h.mem_acceptedIds_iff.mp (List.mem_filter.mp hmem).1

/-- Only accepted scripts end. -/
theorem lt_of_mem_endedIds (h : Coherent lines? story)
    (he : script ∈ story.filterMap Happening.endedId?) :
    script < story.countP Happening.isAcceptance := by
  induction h with
  | nil => simp at he
  | @snoc story happening hstory hfits ih =>
    rw [List.filterMap_append, List.mem_append] at he
    rw [List.countP_append]
    rcases he with he | he
    · exact Nat.lt_add_right _ (ih he)
    · cases happening with
      | ended other source outcome =>
        obtain rfl : script = other := by simpa [Happening.endedId?] using he
        exact Nat.lt_add_right _ (hstory.lt_of_mem_underway (by simp [hfits.1]))
      | _ => simp [Happening.endedId?] at he

/-- The next script to be accepted has not ended. -/
theorem count_notMem_endedIds (h : Coherent lines? story) :
    story.countP Happening.isAcceptance ∉ story.filterMap Happening.endedId? :=
  fun he => Nat.lt_irrefl _ (h.lt_of_mem_endedIds he)

/-- Accepting a script puts it underway. -/
theorem underway_accepted (h : Coherent lines? story) {source : Source}
    (hfits : Fits lines? story (.accepted script source)) :
    underway (story ++ [.accepted script source]) = [script] := by
  obtain ⟨hnone, rfl⟩ := hfits
  rw [underway_snoc_accepted _ _ _ h.count_notMem_endedIds, hnone, List.nil_append]

/-- At every moment at most one script is underway. -/
theorem length_underway_le_one (h : Coherent lines? story) : (underway story).length ≤ 1 := by
  induction h with
  | nil => exact Nat.zero_le 1
  | @snoc story happening hstory hfits ih =>
    cases happening with
    | accepted script source =>
      rw [hstory.underway_accepted hfits]
      exact Nat.le_refl 1
    | ended script source outcome =>
      rw [underway_snoc_ended]
      exact Nat.le_trans (List.length_filter_le ..) ih
    | _ => rwa [underway_snoc_other _ rfl rfl]

/-- When a script ends, none is underway. -/
theorem underway_ended {source : Source} {outcome : Outcome}
    (hfits : Fits lines? story (.ended script source outcome)) :
    underway (story ++ [.ended script source outcome]) = [] := by
  rw [underway_snoc_ended, hfits.1]
  simp

/-- What is told of a script is told of the one underway, or tells that the next one is accepted. -/
theorem mem_underway_or_accepted (hfits : Fits lines? story happening)
    (hof : happening.script? = some script) :
    script ∈ underway story ∨ script = story.countP Happening.isAcceptance ∧
      happening.acceptedId? = some script := by
  cases happening with
  | accepted other source =>
    obtain rfl := Option.some.inj hof
    exact Or.inr ⟨hfits.2, rfl⟩
  | cancelAsked other? =>
    obtain rfl : other? = some script := hof
    exact Or.inl (by simp [hfits.1])
  | rejected | reported => simp [Happening.script?] at hof
  | reached other _ | paused other _ | handed other _ | ended other _ _ =>
    obtain rfl := Option.some.inj hof
    exact Or.inl (by simp [hfits.1])
  | returned other _ =>
    obtain rfl := Option.some.inj hof
    exact Or.inl (by simp [show underway story = [other] from hfits])

/-- Nothing is told of a script behind its end. -/
theorem script?_ne_of_mem_endedIds (h : Coherent lines? (before ++ happening :: after))
    (he : script ∈ before.filterMap Happening.endedId?) : happening.script? ≠ some script := by
  intro hof
  have hlt := h.prefix_of_append.lt_of_mem_endedIds he
  rcases mem_underway_or_accepted h.fits hof with hmem | ⟨rfl, -⟩
  · simpa [he] using (List.mem_filter.mp hmem).2
  · exact Nat.lt_irrefl _ hlt

/-- A script ends for the first time, and nothing is told of it behind that. -/
theorem apart_of_ended {source : Source} {outcome : Outcome}
    (h : Coherent lines? (before ++ .ended script source outcome :: after)) :
    (∀ happening ∈ before, happening.endedId? ≠ some script) ∧
      ∀ happening ∈ after, happening.script? ≠ some script := by
  constructor
  · intro happening hmem he
    have hunder : script ∈ underway before := by simp [h.fits.1]
    have hfree : script ∉ before.filterMap Happening.endedId? := by
      simpa using (List.mem_filter.mp hunder).2
    exact hfree (List.mem_filterMap.mpr ⟨happening, hmem, he⟩)
  · intro happening hmem
    obtain ⟨early, late, rfl⟩ := List.append_of_mem hmem
    rw [← List.cons_append, ← List.append_assoc] at h
    exact h.script?_ne_of_mem_endedIds (List.mem_filterMap.mpr
      ⟨.ended script source outcome, List.mem_append_right _ List.mem_cons_self, rfl⟩)

/-- Only scripts that were accepted are told of. -/
theorem lt_of_script? (h : Coherent lines? story) (hmem : happening ∈ story)
    (hof : happening.script? = some script) : script < story.countP Happening.isAcceptance := by
  induction h with
  | nil => simp at hmem
  | @snoc story last hstory hfits ih =>
    rw [List.countP_append]
    rcases List.mem_append.mp hmem with hmem | hmem
    · exact Nat.lt_add_right _ (ih hmem)
    · obtain rfl := List.mem_singleton.mp hmem
      rcases mem_underway_or_accepted hfits hof with hunder | ⟨rfl, haccepted⟩
      · exact Nat.lt_add_right _ (hstory.lt_of_mem_underway hunder)
      · cases happening with
        | accepted other source => exact Nat.lt_succ_self _
        | _ => simp [Happening.acceptedId?] at haccepted

/-- The script underway is the one that was accepted last. -/
theorem succ_of_mem_underway (h : Coherent lines? story) (hunder : script ∈ underway story) :
    script + 1 = story.countP Happening.isAcceptance := by
  induction h with
  | nil => simp [underway] at hunder
  | @snoc story last hstory hfits ih =>
    rw [List.countP_append]
    cases last with
    | accepted other source =>
      rw [hstory.underway_accepted hfits] at hunder
      obtain rfl : script = other := by simpa using hunder
      rw [hfits.2]
      rfl
    | ended other source outcome =>
      rw [underway_ended hfits] at hunder
      simp at hunder
    | _ =>
      rw [underway_snoc_other _ rfl rfl] at hunder
      exact ih hunder

/-- A script that was accepted is underway or has ended. -/
theorem mem_underway_or_ended (h : Coherent lines? story)
    (hlt : script < story.countP Happening.isAcceptance) :
    script ∈ underway story ∨ script ∈ story.filterMap Happening.endedId? := by
  by_cases he : script ∈ story.filterMap Happening.endedId?
  · exact Or.inr he
  · exact Or.inl (List.mem_filter.mpr ⟨h.mem_acceptedIds_iff.mpr hlt, by simpa using he⟩)

/-- A script ends with the source with which it was accepted. -/
theorem accepted_of_ended (h : Coherent lines? story) {source : Source} {outcome : Outcome}
    (hended : .ended script source outcome ∈ story) : .accepted script source ∈ story := by
  obtain ⟨before, after, rfl⟩ := List.append_of_mem hended
  exact List.mem_append_left _ h.fits.2.1

/-- Each script has one source. -/
theorem source_unique (h : Coherent lines? story) {a b : Source}
    (ha : .accepted script a ∈ story) (hb : .accepted script b ∈ story) : a = b := by
  induction h with
  | nil => simp at ha
  | @snoc story last hstory hfits ih =>
    have hold : ∀ {source source'}, .accepted script source ∈ story →
        Happening.accepted script source' ≠ last := by
      rintro source source' hmem rfl
      have hlt := hstory.lt_of_script? hmem rfl
      exact Nat.lt_irrefl _ (hfits.2 ▸ hlt)
    rcases List.mem_append.mp ha with ha | ha
    · rcases List.mem_append.mp hb with hb | hb
      · exact ih ha hb
      · exact absurd (List.mem_singleton.mp hb) (hold ha)
    · rcases List.mem_append.mp hb with hb | hb
      · exact absurd (List.mem_singleton.mp ha) (hold hb)
      · have he := (List.mem_singleton.mp ha).trans (List.mem_singleton.mp hb).symm
        exact (Happening.accepted.inj he).2

/-- Each script ends once. -/
theorem nodup_endedIds (h : Coherent lines? story) :
    (story.filterMap Happening.endedId?).Nodup := by
  induction h with
  | nil => exact List.nodup_nil
  | @snoc story last _ hfits ih =>
    rw [List.filterMap_append, List.nodup_append]
    cases last with
    | ended other source outcome =>
      have hmem : other ∈ underway story := by simp [hfits.1]
      have hnot : other ∉ story.filterMap Happening.endedId? := by
        simpa using (List.mem_filter.mp hmem).2
      refine ⟨ih, by simp [Happening.endedId?], fun script hs other' ho => ?_⟩
      obtain rfl : other' = other := by simpa [Happening.endedId?] using ho
      rintro rfl
      exact hnot hs
    | _ => exact ⟨ih, List.nodup_nil, fun _ _ _ h => absurd h List.not_mem_nil⟩

/-- The story tells of one script after the other. -/
theorem pairwise_scripts (h : Coherent lines? story) :
    (story.filterMap Happening.script?).Pairwise (· ≤ ·) := by
  induction h with
  | nil => exact .nil
  | @snoc story last hstory hfits ih =>
    rw [List.filterMap_append, List.pairwise_append]
    refine ⟨ih, ?_, fun script hs other ho => ?_⟩
    · cases hlast : last.script? <;> simp [hlast]
    · obtain ⟨happening, hmem, hof⟩ := List.mem_filterMap.mp hs
      have hother : last.script? = some other := by simpa using ho
      have hlt := hstory.lt_of_script? hmem hof
      rcases mem_underway_or_accepted hfits hother with hunder | ⟨rfl, -⟩
      · have hlast := hstory.succ_of_mem_underway hunder
        omega
      · exact Nat.le_of_lt hlt

end Coherent

end CommandConsole.Script
