import CommandConsole.Proofs.Command.Registrations
import Mathlib.Data.Finset.Card
import Mathlib.Data.String.Basic

/-!
# Registries as logs of registrations

The log of a registry lists the registrations that were accepted since it was cleared last. The
registry's definitions are those of the log that no later registration for the same name and flag
supersedes, in the order of the log, and its index holds their names. What is looked up, counted and
listed in a registry is therefore read off the log. The step lemmas say what one registration does
to the definitions and to the index, `ofOperations_shows` what any number of changes comes to.
-/

namespace CommandConsole

section Index

variable {name other : String} {names : List String}

theorem mem_insertName : other ∈ insertName name names ↔ other = name ∨ other ∈ names := by
  fun_induction insertName name names with
  | case1 => simp
  | case2 => simp
  | case3 => simp
  | case4 first rest _ _ ih =>
    rw [List.mem_cons, ih, List.mem_cons]
    tauto

/-- Inserting a name keeps an index increasing. -/
theorem pairwise_insertName (h : names.Pairwise (· < ·)) :
    (insertName name names).Pairwise (· < ·) := by
  fun_induction insertName name names with
  | case1 => exact List.pairwise_singleton ..
  | case2 first rest hlt =>
    refine List.pairwise_cons.mpr ⟨fun other hmem => ?_, h⟩
    rcases List.mem_cons.mp hmem with rfl | hmem
    · exact hlt
    · exact lt_trans hlt ((List.pairwise_cons.mp h).1 other hmem)
  | case3 => exact h
  | case4 first rest hlt hne ih =>
    obtain ⟨hfirst, hrest⟩ := List.pairwise_cons.mp h
    refine List.pairwise_cons.mpr ⟨fun other hmem => ?_, ih hrest⟩
    rcases mem_insertName.mp hmem with rfl | hmem
    · exact lt_of_le_of_ne (not_lt.mp hlt) (Ne.symm hne)
    · exact hfirst other hmem

end Index

namespace Definition

variable {η : Type} {d e : Definition η}

/-- The name and the flag that a definition is for. -/
def pair (d : Definition η) : String × String :=
  (d.name, d.flag)

/-- The definition is for a flag of the name, which the empty one is not. -/
def hasFlagOf (name : String) (d : Definition η) : Bool :=
  d.name == name && d.flag != ""

theorem hasFlagOf_iff {name : String} : d.hasFlagOf name = true ↔ d.name = name ∧ d.flag ≠ "" := by
  simp [hasFlagOf]

theorem isFor_pair_iff : e.isFor d.name d.flag = true ↔ e.pair = d.pair := by
  rw [isFor_iff, pair, pair, Prod.mk.injEq]

/-- To be for the same name and flag is symmetric. -/
theorem isFor_comm (d e : Definition η) : e.isFor d.name d.flag = d.isFor e.name e.flag := by
  rw [Bool.eq_iff_iff, isFor_pair_iff, isFor_pair_iff, eq_comm]

end Definition

namespace Registry

variable {η : Type} {d e : Definition η} {log later : List (Definition η)} {r : Registry η}
  {name flag : String}

/-- The log behind a change: a registration is accepted if its name is not blank. -/
def Operation.extend (log : List (Definition η)) : Operation η → List (Definition η)
  | .register d => if Text.isBlank d.name then log else log ++ [d]
  | .clear => []

/-- The registrations that were accepted since the registry was cleared last, the oldest first. -/
def acceptedSince (operations : List (Operation η)) : List (Definition η) :=
  operations.foldl Operation.extend []

/-- The registrations of a log that no later one for the same name and flag supersedes. -/
def standing : List (Definition η) → List (Definition η)
  | [] => []
  | d :: later =>
    if later.any (·.isFor d.name d.flag) then standing later else d :: standing later

/-- The definition is the latest registration of a log for exactly this name and flag. -/
def IsLatest (log : List (Definition η)) (name flag : String) (d : Definition η) : Prop :=
  ∃ before after, log = before ++ d :: after ∧ d.name = name ∧ d.flag = flag ∧
    ∀ e ∈ after, ¬(e.name = name ∧ e.flag = flag)

section Standing

theorem standing_of_superseded (h : d.pair ∈ later.map Definition.pair) :
    standing (d :: later) = standing later := by
  obtain ⟨e, hmem, he⟩ := List.mem_map.mp h
  rw [standing, if_pos (List.any_eq_true.mpr ⟨e, hmem, Definition.isFor_pair_iff.mpr he⟩)]

theorem standing_of_not_superseded (h : d.pair ∉ later.map Definition.pair) :
    standing (d :: later) = d :: standing later := by
  rw [standing, if_neg]
  intro hany
  obtain ⟨e, hmem, he⟩ := List.any_eq_true.mp hany
  exact h (List.mem_map.mpr ⟨e, hmem, Definition.isFor_pair_iff.mp he⟩)

/-- The pairs that stand are those of the log, each where it was registered last. -/
theorem map_pair_standing (log : List (Definition η)) :
    (standing log).map Definition.pair = (log.map Definition.pair).dedup := by
  induction log with
  | nil => rfl
  | cons d later ih =>
    by_cases h : d.pair ∈ later.map Definition.pair
    · rw [standing_of_superseded h, List.map_cons, List.dedup_cons_of_mem h, ih]
    · rw [standing_of_not_superseded h, List.map_cons, List.map_cons,
        List.dedup_cons_of_notMem h, ih]

theorem standing_sublist (log : List (Definition η)) : (standing log).Sublist log := by
  induction log with
  | nil => exact .slnil
  | cons d later ih =>
    rw [standing]
    split
    · exact ih.cons d
    · exact ih.cons_cons d

/-- A definition stands when nothing behind it is for its name and flag. -/
theorem mem_standing_iff : d ∈ standing log ↔
    ∃ before after, log = before ++ d :: after ∧ d.pair ∉ after.map Definition.pair := by
  induction log with
  | nil => simp [standing]
  | cons first later ih =>
    constructor
    · intro hmem
      by_cases h : first.pair ∈ later.map Definition.pair
      · rw [standing_of_superseded h] at hmem
        obtain ⟨before, after, rfl, hafter⟩ := ih.mp hmem
        exact ⟨first :: before, after, rfl, hafter⟩
      · rw [standing_of_not_superseded h] at hmem
        rcases List.mem_cons.mp hmem with rfl | hmem
        · exact ⟨[], later, rfl, h⟩
        · obtain ⟨before, after, rfl, hafter⟩ := ih.mp hmem
          exact ⟨first :: before, after, rfl, hafter⟩
    · rintro ⟨before, after, hlog, hafter⟩
      cases before with
      | nil =>
        obtain ⟨rfl, rfl⟩ := List.cons.inj hlog
        rw [standing_of_not_superseded hafter]
        exact List.mem_cons_self
      | cons head before =>
        rw [List.cons_append] at hlog
        obtain ⟨rfl, rfl⟩ := List.cons.inj hlog
        have hrest := ih.mpr ⟨before, after, rfl, hafter⟩
        by_cases h : first.pair ∈ (before ++ d :: after).map Definition.pair
        · rwa [standing_of_superseded h]
        · rw [standing_of_not_superseded h]
          exact List.mem_cons_of_mem _ hrest

theorem isLatest_iff :
    IsLatest log name flag d ↔ d ∈ standing log ∧ d.name = name ∧ d.flag = flag := by
  rw [mem_standing_iff]
  constructor
  · rintro ⟨before, after, hlog, rfl, rfl, hafter⟩
    refine ⟨⟨before, after, hlog, ?_⟩, rfl, rfl⟩
    intro hmem
    obtain ⟨e, he, hpair⟩ := List.mem_map.mp hmem
    exact hafter e he (Prod.mk.inj hpair)
  · rintro ⟨⟨before, after, hlog, hafter⟩, rfl, rfl⟩
    refine ⟨before, after, hlog, rfl, rfl, fun e he hsame => hafter ?_⟩
    exact List.mem_map.mpr ⟨e, he, Prod.ext hsame.1 hsame.2⟩

/-- The flags that stand for a name are those of the log, each where it was registered last. -/
theorem flags_standing (name : String) (log : List (Definition η)) :
    ((standing log).filter (·.hasFlagOf name)).map (·.flag) =
      ((log.filter (·.hasFlagOf name)).map (·.flag)).dedup := by
  induction log with
  | nil => rfl
  | cons d later ih =>
    by_cases hflag : d.hasFlagOf name = true
    · -- a flag of the name is registered again later exactly when its definition is superseded
      have hagain : d.flag ∈ (later.filter (·.hasFlagOf name)).map (·.flag) ↔
          d.pair ∈ later.map Definition.pair := by
        obtain ⟨rfl, hne⟩ := Definition.hasFlagOf_iff.mp hflag
        constructor
        · intro hmem
          obtain ⟨e, he, hsame⟩ := List.mem_map.mp hmem
          obtain ⟨he, hof⟩ := List.mem_filter.mp he
          exact List.mem_map.mpr ⟨e, he, Prod.ext (Definition.hasFlagOf_iff.mp hof).1 hsame⟩
        · intro hmem
          obtain ⟨e, he, hpair⟩ := List.mem_map.mp hmem
          obtain ⟨hname, hsame⟩ := Prod.mk.inj hpair
          have hof : e.hasFlagOf d.name = true :=
            Definition.hasFlagOf_iff.mpr ⟨hname, hsame ▸ hne⟩
          exact List.mem_map.mpr ⟨e, List.mem_filter.mpr ⟨he, hof⟩, hsame⟩
      rw [List.filter_cons_of_pos hflag, List.map_cons]
      by_cases h : d.pair ∈ later.map Definition.pair
      · rw [standing_of_superseded h, ih, List.dedup_cons_of_mem (hagain.mpr h)]
      · rw [standing_of_not_superseded h, List.filter_cons_of_pos hflag, List.map_cons, ih,
          List.dedup_cons_of_notMem (mt hagain.mp h)]
    · rw [List.filter_cons_of_neg hflag]
      by_cases h : d.pair ∈ later.map Definition.pair
      · rw [standing_of_superseded h, ih]
      · rw [standing_of_not_superseded h, List.filter_cons_of_neg hflag, ih]

/-- A registration at the end of the log supersedes those for its name and flag, and no other. -/
theorem standing_append_singleton (log : List (Definition η)) (d : Definition η) :
    standing (log ++ [d]) = (standing log).filter (fun e => !e.isFor d.name d.flag) ++ [d] := by
  induction log with
  | nil => simp [standing]
  | cons first later ih =>
    rw [List.cons_append, standing, standing, List.any_append, List.any_cons, List.any_nil,
      Bool.or_false, ih]
    cases hlater : later.any (·.isFor first.name first.flag) with
    | true => simp
    | false =>
      cases hd : d.isFor first.name first.flag with
      | true => simp [Definition.isFor_comm d first, hd]
      | false => simp [Definition.isFor_comm d first, hd]

end Standing

/-- The names in the index are those of the definitions, increasing. -/
structure Indexed (r : Registry η) : Prop where
  increasing : r.names.Pairwise (· < ·)
  mem_iff : ∀ name, name ∈ r.names ↔ ∃ d ∈ r.definitions, d.name = name

theorem indexed_empty : Indexed (empty : Registry η) where
  increasing := .nil
  mem_iff := by simp [empty]

theorem register_of_blank (h : Text.isBlank d.name = true) (r : Registry η) :
    r.register d = .error .blankName := by
  rw [register, if_pos h]

theorem register_of_named (h : Text.isBlank d.name = false) (r : Registry η) :
    r.register d = .ok
      { definitions := r.definitions.filter (fun e => !e.isFor d.name d.flag) ++ [d]
        names := insertName d.name r.names } := by
  rw [register, if_neg (by simp [h])]

/-- A registration adds its name to the index. The definition that it replaces had this name too, so
no name is left without a definition. -/
theorem Indexed.register {s : Registry η} (h : Indexed r) (hregister : r.register d = .ok s) :
    Indexed s := by
  rw [Registry.register] at hregister
  split at hregister
  · cases hregister
  obtain rfl := Except.ok.inj hregister
  refine ⟨pairwise_insertName h.increasing, fun name => ?_⟩
  rw [mem_insertName, h.mem_iff]
  simp only [List.mem_append, List.mem_filter, List.mem_singleton, Bool.not_eq_true']
  constructor
  · rintro (rfl | ⟨e, he, rfl⟩)
    · exact ⟨d, .inr rfl, rfl⟩
    · cases hsame : e.isFor d.name d.flag with
      | true => exact ⟨d, .inr rfl, (Definition.isFor_iff.mp hsame).1.symm⟩
      | false => exact ⟨e, .inl ⟨he, hsame⟩, rfl⟩
  · rintro ⟨e, ⟨he, -⟩ | rfl, rfl⟩
    · exact .inr ⟨e, he, rfl⟩
    · exact .inl rfl

/-- The definitions of a registry are those that stand in a log of names that are not blank, and
its index is that of the definitions. -/
structure Keeps (log : List (Definition η)) (r : Registry η) : Prop where
  definitions : r.definitions = standing log
  indexed : Indexed r
  named : ∀ d ∈ log, Text.isBlank d.name = false

/-- A change of the registry extends its log. -/
theorem Keeps.apply (h : Keeps log r) (operation : Operation η) :
    Keeps (operation.extend log) (operation.apply r) := by
  cases operation with
  | clear => exact ⟨rfl, indexed_empty, by simp [Operation.extend]⟩
  | register d =>
    rw [Operation.extend, Operation.apply]
    cases hblank : Text.isBlank d.name with
    | true =>
      rw [register_of_blank hblank]
      exact h
    | false =>
      have hregister := register_of_named hblank r
      rw [hregister]
      refine ⟨?_, h.indexed.register hregister, ?_⟩
      · rw [if_neg Bool.false_ne_true, standing_append_singleton, ← h.definitions]
        rfl
      · intro e he
        rcases List.mem_append.mp he with he | he
        · exact h.named e he
        · obtain rfl := List.mem_singleton.mp he
          exact hblank

/-- However a registry came about, it keeps the log of its registrations. -/
theorem keeps_ofOperations (operations : List (Operation η)) :
    Keeps (acceptedSince operations) (ofOperations operations) := by
  have hrun : ∀ {log : List (Definition η)} {r : Registry η}, Keeps log r →
      Keeps (operations.foldl Operation.extend log) (operations.foldl Operation.apply r) := by
    induction operations with
    | nil => exact fun h => h
    | cons operation operations ih => exact fun h => ih (h.apply operation)
  exact hrun ⟨rfl, indexed_empty, by simp⟩

/-- What a registry shows of the log of its registrations. -/
structure Shows (log : List (Definition η)) (r : Registry η) : Prop where
  /-- The definitions are the registrations that stand, in their order. -/
  definitions : r.definitions = standing log
  /-- No two definitions are for the same name and flag. -/
  distinct : (r.definitions.map fun d => (d.name, d.flag)).Nodup
  /-- No definition has a blank name. -/
  named : ∀ d ∈ r.definitions, Text.isBlank d.name = false
  /-- A definition with a blank name is refused, and this changes nothing. -/
  refused : ∀ d, Text.isBlank d.name = true →
    r.register d = .error .blankName ∧ (Operation.register d).apply r = r
  /-- Every other definition is accepted. -/
  accepted : ∀ d, Text.isBlank d.name = false →
    r.register d = .ok ((Operation.register d).apply r)
  /-- The definition of a name and a flag is the latest registration for them. -/
  get? : ∀ name flag d, r.get? name flag = some d ↔ IsLatest log name flag d
  /-- The flags of a name are those registered for it but the empty one, each listed once, where it
  was registered last. -/
  flagsFor : ∀ name, r.flagsFor name =
    ((log.filter fun d => d.name == name && d.flag != "").map (·.flag)).dedup
  /-- The description of a name is that of its plain form. -/
  describe? : ∀ name, r.describe? name = (r.get? name "").map (·.description)
  /-- As many definitions are counted as there are different pairs of a name and a flag. -/
  size : r.size = (log.map fun d => (d.name, d.flag)).toFinset.card
  /-- The names are increasing. -/
  increasing : r.names.Pairwise (· < ·)
  /-- The names are those with a definition. -/
  names : ∀ name, name ∈ r.names ↔ ∃ d ∈ r.definitions, d.name = name

/-- Whatever was registered, accepted or not, and however often the registry was cleared, it shows
the registrations that were accepted since it was cleared last. -/
theorem ofOperations_shows (operations : List (Operation η)) :
    Shows (acceptedSince operations) (ofOperations operations) := by
  have h := keeps_ofOperations operations
  have hdistinct := distinct_ofOperations operations
  generalize acceptedSince operations = log at h
  generalize ofOperations operations = r at h hdistinct
  have hpairs : (r.definitions.map fun d => (d.name, d.flag)) = (log.map Definition.pair).dedup := by
    rw [h.definitions]
    exact map_pair_standing log
  refine
    { definitions := h.definitions
      distinct := hpairs ▸ List.nodup_dedup _
      named := fun d hmem => h.named d ((standing_sublist log).subset (h.definitions ▸ hmem))
      refused := fun d hblank => ?_
      accepted := fun d hnamed => ?_
      get? := fun name flag d => ?_
      flagsFor := fun name => ?_
      describe? := fun name => rfl
      size := ?_
      increasing := h.indexed.increasing
      names := h.indexed.mem_iff }
  · have hrefused := register_of_blank hblank r
    exact ⟨hrefused, by rw [Operation.apply, hrefused]; rfl⟩
  · have haccepted := register_of_named hnamed r
    rw [Operation.apply, haccepted]
    rfl
  · rw [hdistinct.get?_eq_some_iff, isLatest_iff, h.definitions]
  · rw [Registry.flagsFor, h.definitions]
    exact flags_standing name log
  · have hcount := congrArg List.length hpairs
    rw [List.length_map] at hcount
    rw [Registry.size, hcount, ← List.card_toFinset]
    rfl

/-- A name that is registered again and one whose definitions were replaced and cleared away. -/
example :
    let plain (name : String) (flag : String) : Definition Unit := ⟨name, "", flag, ()⟩
    let r := ofOperations ([plain "old" "", plain "go" "-x", plain " " ""].map .register ++
      [.clear] ++ [plain "go" "-x", plain "go" "-y", plain "do" "", plain "go" "-x"].map .register)
    (r.names, r.flagsFor "go", r.size) = (["do", "go"], ["-y", "-x"], 3) := by
  decide +kernel

end Registry

end CommandConsole
