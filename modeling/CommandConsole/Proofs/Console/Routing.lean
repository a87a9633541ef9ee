import CommandConsole.Console.Dispatch
import CommandConsole.Proofs.Command.Registrations

/-!
# Calls of a line

A line looks its definition up once and then calls it with one argument list after the other, each
call on the desk that the one before it left. `Routes` says which calls are made, what they leave
behind and what is reported, with the tokens of the line as they stand. A line is routed in this way
whatever its handlers do to the desk, and it fails to return exactly when one of its calls does.
-/

namespace CommandConsole

open Script (Effect)

namespace Turn

variable {α β : Type}

/-- A sequence of two turns returns when both do, with their effects one behind the other. -/
theorem bind_eq_some_iff {turn : Turn α} {next : α → Turn β} {desk : Desk Handler}
    {done : Done β} : (turn >>= next) desk = some done ↔
      ∃ first second, turn desk = some first ∧ next first.value first.desk = some second ∧
        done = { second with effects := first.effects ++ second.effects } := by
  change Turn.bind turn next desk = some done ↔ _
  rw [Turn.bind]
  cases hturn : turn desk with
  | none => simp
  | some first =>
    cases hnext : next first.value first.desk with
    | none => simp [hnext]
    | some second => simp [hnext, eq_comm]

/-- A sequence of two turns does not return when one of them does not. -/
theorem bind_eq_none_iff {turn : Turn α} {next : α → Turn β} {desk : Desk Handler} :
    (turn >>= next) desk = none ↔
      turn desk = none ∨ ∃ first, turn desk = some first ∧ next first.value first.desk = none := by
  change Turn.bind turn next desk = none ↔ _
  rw [Turn.bind]
  cases hturn : turn desk with
  | none => simp
  | some first =>
    cases hnext : next first.value first.desk <;> simp [hnext]

@[simp] theorem pure_apply (value : α) (desk : Desk Handler) :
    (pure value : Turn α) desk = some ⟨value, [], desk⟩ := rfl

@[simp] theorem desk_bind_apply (next : Desk Handler → Turn β) (desk : Desk Handler) :
    (Turn.desk >>= next) desk = next desk desk := by
  change Turn.bind Turn.desk next desk = _
  simp only [Turn.bind, Turn.desk, List.nil_append]
  cases next desk desk <;> rfl

end Turn

/-- Calls made one after the other, each of which returned well, with their effects and the desk
that they leave. -/
inductive AllReturn (call : List String → Turn (Except Failure Unit)) :
    List (List String) → Desk Handler → List Effect → Desk Handler → Prop
  | nil {desk} : AllReturn call [] desk [] desk
  | cons {args rest desk mid last effects more} :
      call args desk = some ⟨.ok (), effects, mid⟩ → AllReturn call rest mid more last →
      AllReturn call (args :: rest) desk (effects ++ more) last

/-- Some calls returned well, and the next one does not return. -/
def SomeHangs (call : List String → Turn (Except Failure Unit)) (lists : List (List String))
    (desk : Desk Handler) : Prop :=
  ∃ before args rest effects mid, lists = before ++ args :: rest ∧
    AllReturn call before desk effects mid ∧ call args mid = none

section Calls

variable {call : List String → Turn (Except Failure Unit)} {lists : List (List String)}
  {desk last : Desk Handler} {effects : List Effect} {returned n : Nat}

private theorem callAll_nil_iff {report : CallReport} :
    callAll call returned [] desk = some ⟨report, effects, last⟩ ↔
      report = ⟨returned, none⟩ ∧ effects = [] ∧ last = desk := by
  simp [callAll, eq_comm]

private theorem callAll_cons_iff {args : List String} {rest : List (List String)}
    {done : Turn.Done CallReport} :
    callAll call returned (args :: rest) desk = some done ↔
      (∃ first mid second, call args desk = some ⟨.ok (), first, mid⟩ ∧
        callAll call (returned + 1) rest mid = some second ∧
        done = { second with effects := first ++ second.effects }) ∨
      ∃ cause first mid, call args desk = some ⟨.error cause, first, mid⟩ ∧
        done = ⟨⟨returned, some cause⟩, first, mid⟩ := by
  rw [callAll, Turn.bind_eq_some_iff]
  constructor
  · rintro ⟨⟨value, first, mid⟩, second, hcall, hnext, rfl⟩
    cases value with
    | ok value => exact Or.inl ⟨first, mid, second, hcall, hnext, rfl⟩
    | error cause =>
      refine Or.inr ⟨cause, first, mid, hcall, ?_⟩
      obtain rfl := Option.some.inj hnext
      rw [List.append_nil]
  · rintro (⟨first, mid, second, hcall, hrest, rfl⟩ | ⟨cause, first, mid, hcall, rfl⟩)
    · exact ⟨_, second, hcall, hrest, rfl⟩
    · exact ⟨_, _, hcall, rfl, by rw [List.append_nil]⟩

/-- Without a failure every call was made, and each returned well. -/
theorem callAll_ok_iff :
    callAll call returned lists desk = some ⟨⟨n, none⟩, effects, last⟩ ↔
      n = returned + lists.length ∧ AllReturn call lists desk effects last := by
  induction lists generalizing returned desk effects with
  | nil =>
    rw [callAll_nil_iff]
    constructor
    · rintro ⟨he, rfl, rfl⟩
      exact ⟨by simpa using he, .nil⟩
    · rintro ⟨he, hall⟩
      cases hall
      exact ⟨by simpa using he, rfl, rfl⟩
  | cons args rest ih =>
    rw [callAll_cons_iff]
    constructor
    · rintro (⟨first, mid, ⟨report, more, last'⟩, hcall, hrest, hdone⟩ | ⟨_, _, _, _, hdone⟩)
      · obtain ⟨rfl, rfl, rfl⟩ := (Turn.Done.mk.injEq ..).mp hdone
        obtain ⟨hn, hall⟩ := ih.mp hrest
        refine ⟨?_, .cons hcall hall⟩
        rw [hn, List.length_cons]
        omega
      · simp at hdone
    · rintro ⟨hn, hall⟩
      cases hall with
      | cons hcall hall =>
        rw [List.length_cons] at hn
        exact Or.inl ⟨_, _, _, hcall, ih.mpr ⟨by omega, hall⟩, rfl⟩

/-- With a failure the calls before the failed one returned well, and none was made behind it. -/
theorem callAll_failed_iff {cause : Failure} :
    callAll call returned lists desk = some ⟨⟨n, some cause⟩, effects, last⟩ ↔
      ∃ before args rest mid first more, lists = before ++ args :: rest ∧
        n = returned + before.length ∧ AllReturn call before desk first mid ∧
        call args mid = some ⟨.error cause, more, last⟩ ∧ effects = first ++ more := by
  induction lists generalizing returned desk effects with
  | nil =>
    rw [callAll_nil_iff]
    constructor
    · rintro ⟨he, -⟩
      simp at he
    · rintro ⟨before, args, rest, _, _, _, hlists, -⟩
      simp at hlists
  | cons args rest ih =>
    rw [callAll_cons_iff]
    constructor
    · rintro (⟨first, mid, ⟨report, more, last'⟩, hcall, hrest, hdone⟩ |
        ⟨cause', first, mid, hcall, hdone⟩)
      · obtain ⟨rfl, rfl, rfl⟩ := (Turn.Done.mk.injEq ..).mp hdone
        obtain ⟨before, args', rest', mid', first', more', rfl, hn, hall, hfail, rfl⟩ :=
          ih.mp hrest
        refine ⟨args :: before, args', rest', mid', first ++ first', more', rfl, ?_,
          .cons hcall hall, hfail, (List.append_assoc ..).symm⟩
        rw [hn, List.length_cons]
        omega
      · obtain ⟨hreport, rfl, rfl⟩ := (Turn.Done.mk.injEq ..).mp hdone
        obtain ⟨rfl, hcause⟩ := (CallReport.mk.injEq ..).mp hreport
        obtain rfl := Option.some.inj hcause
        exact ⟨[], args, rest, desk, [], _, rfl, rfl, .nil, hcall, rfl⟩
    · rintro ⟨before, args', rest', mid, first, more, hlists, hn, hall, hfail, rfl⟩
      cases hall with
      | nil =>
        obtain ⟨rfl, rfl⟩ := List.cons.inj hlists
        obtain rfl := hn
        exact Or.inr ⟨cause, more, last, hfail, rfl⟩
      | cons hcall hall =>
        obtain ⟨rfl, rfl⟩ := List.cons.inj hlists
        rw [List.length_cons] at hn
        refine Or.inl ⟨_, _, _, hcall, ih.mpr ⟨_, _, _, _, _, _, rfl, ?_, hall, hfail, rfl⟩, ?_⟩
        · omega
        · simp only [List.append_assoc]

/-- Calls do not come to an end exactly when one of them does not return. -/
theorem callAll_eq_none_iff :
    callAll call returned lists desk = none ↔ SomeHangs call lists desk := by
  induction lists generalizing returned desk with
  | nil =>
    constructor
    · intro h
      simp [callAll] at h
    · rintro ⟨before, args, rest, _, _, hlists, -⟩
      simp at hlists
  | cons args rest ih =>
    rw [callAll, Turn.bind_eq_none_iff]
    constructor
    · rintro (hcall | ⟨⟨value, first, mid⟩, hcall, hrest⟩)
      · exact ⟨[], args, rest, [], desk, rfl, .nil, hcall⟩
      · cases value with
        | ok value =>
          obtain ⟨before, args', rest', effects, mid', rfl, hall, hhangs⟩ := ih.mp hrest
          exact ⟨args :: before, args', rest', _, mid', rfl, .cons hcall hall, hhangs⟩
        | error cause => simp at hrest
    · rintro ⟨before, args', rest', effects, mid, hlists, hall, hhangs⟩
      cases hall with
      | nil =>
        obtain ⟨rfl, rfl⟩ := List.cons.inj hlists
        exact Or.inl hhangs
      | cons hcall hall =>
        obtain ⟨rfl, rfl⟩ := List.cons.inj hlists
        exact Or.inr ⟨_, hcall, ih.mpr ⟨_, _, _, _, _, rfl, hall, hhangs⟩⟩

end Calls

/-- A definition's handler as a turn, for the arguments it is called with. -/
def Definition.call (execute : String → Turn (Except ParseError Outcome))
    (definition : Definition Handler) (args : List String) : Turn (Except Failure Unit) :=
  (definition.handler args).run execute

/-- What comes of a command, with the tokens behind its name, on a desk: the definition is the one
that the desk has for the first flag when the line starts, and it is called with one argument list
after the other until a call fails. Only a failed call and a missing definition are reported. -/
inductive Routes (execute : String → Turn (Except ParseError Outcome)) (name : String)
    (tokens : List String) (desk : Desk Handler) : Outcome → List Effect → Desk Handler → Prop
  | executed {definition effects last} :
      desk.registry.get? name (leadingFlag tokens) = some definition →
      AllReturn (definition.call execute) (argumentLists tokens) desk effects last →
      Routes execute name tokens desk (.executed (argumentLists tokens).length) effects last
  | handlerFailed {definition before args rest effects mid cause more last} :
      desk.registry.get? name (leadingFlag tokens) = some definition →
      argumentLists tokens = before ++ args :: rest →
      AllReturn (definition.call execute) before desk effects mid →
      definition.call execute args mid = some ⟨.error cause, more, last⟩ →
      Routes execute name tokens desk (.handlerFailed before.length cause.text)
        (effects ++ more ++
          [.say (.error ("Error executing command '" ++ name ++ "': " ++ cause.text))]) last
  | notFound :
      desk.registry.get? name (leadingFlag tokens) = none → tokens.find? isFlag = none →
      Routes execute name tokens desk .notFound
        [.say (.error ("Command '" ++ name ++ "' not found."))] desk
  | flagNotSupported {flag} :
      desk.registry.get? name (leadingFlag tokens) = none → tokens.find? isFlag = some flag →
      Routes execute name tokens desk .flagNotSupported
        [.say (.warning ("Command '" ++ name ++ "' does not support the provided flag."))] desk

section Dispatch

variable {execute : String → Turn (Except ParseError Outcome)} {name : String}
  {tokens : List String} {desk last : Desk Handler} {outcome : Outcome} {effects : List Effect}

private theorem findMatch_ofTokens_of_none
    (h : desk.registry.get? name (leadingFlag tokens) = none) :
    desk.registry.findMatch (.ofTokens name tokens) =
      .error (match tokens.find? isFlag with
        | some flag => .flagNotSupported name flag
        | none => .commandNotFound name) := by
  rw [Registry.findMatch, Invocation.primaryFlag?_ofTokens]
  rw [leadingFlag] at h
  cases hflag : tokens.find? isFlag with
  | none =>
    rw [hflag] at h
    simp only [Invocation.ofTokens]
    rw [show desk.registry.get? name "" = none from h]
  | some flag =>
    rw [hflag] at h
    simp only [Invocation.ofTokens]
    rw [show desk.registry.get? name flag = none from h]

private theorem dispatch_of_some {definition : Definition Handler}
    (h : desk.registry.get? name (leadingFlag tokens) = some definition) :
    dispatch execute (.ofTokens name tokens) desk =
      (callAll (definition.call execute) 0 (argumentLists tokens) >>= fun report =>
        match report.failure? with
        | none => pure (.executed report.returned)
        | some cause => do
          Turn.say (failureReport name cause)
          pure (.handlerFailed report.returned cause.text)) desk := by
  have hmatch := Registry.findMatch_ofTokens_eq_ok_iff.mpr h
  rw [dispatch, Turn.desk_bind_apply, hmatch, Invocation.calls_ofTokens]
  rfl

private theorem dispatch_eq_some_iff_of_none
    (hfind : desk.registry.get? name (leadingFlag tokens) = none) :
    dispatch execute (.ofTokens name tokens) desk = some ⟨outcome, effects, last⟩ ↔
      Routes execute name tokens desk outcome effects last := by
  rw [dispatch, Turn.desk_bind_apply, findMatch_ofTokens_of_none hfind]
  cases hflag : tokens.find? isFlag with
  | none =>
    constructor
    · intro h
      obtain ⟨rfl, rfl, rfl⟩ := (Turn.Done.mk.injEq ..).mp (Option.some.inj h)
      exact .notFound hfind hflag
    · intro h
      cases h <;> simp_all
      rfl
  | some flag =>
    constructor
    · intro h
      obtain ⟨rfl, rfl, rfl⟩ := (Turn.Done.mk.injEq ..).mp (Option.some.inj h)
      exact .flagNotSupported hfind hflag
    · intro h
      cases h <;> simp_all
      rfl

private theorem dispatch_eq_some_iff_of_some {definition : Definition Handler}
    (hfind : desk.registry.get? name (leadingFlag tokens) = some definition) :
    dispatch execute (.ofTokens name tokens) desk = some ⟨outcome, effects, last⟩ ↔
      Routes execute name tokens desk outcome effects last := by
  rw [dispatch_of_some hfind, Turn.bind_eq_some_iff]
  constructor
  · rintro ⟨⟨⟨n, failure?⟩, first, mid⟩, second, hcalls, hnext, hdone⟩
    cases failure? with
    | none =>
      obtain ⟨hn, hall⟩ := callAll_ok_iff.mp hcalls
      obtain rfl := Option.some.inj hnext
      obtain ⟨rfl, rfl, rfl⟩ := (Turn.Done.mk.injEq ..).mp hdone
      rw [List.append_nil, hn, Nat.zero_add]
      exact .executed hfind hall
    | some cause =>
      obtain ⟨before, args, rest, mid', first', more, hlists, hn, hall, hfail, rfl⟩ :=
        callAll_failed_iff.mp hcalls
      obtain rfl := Option.some.inj hnext
      obtain ⟨rfl, rfl, rfl⟩ := (Turn.Done.mk.injEq ..).mp hdone
      rw [hn, Nat.zero_add]
      exact .handlerFailed hfind hlists hall hfail
  · intro h
    cases h with
    | executed hfind' hall =>
      obtain rfl := Option.some.inj (hfind.symm.trans hfind')
      refine ⟨_, _, callAll_ok_iff.mpr ⟨rfl, hall⟩, rfl, ?_⟩
      rw [List.append_nil, Nat.zero_add]
    | handlerFailed hfind' hlists hall hfail =>
      obtain rfl := Option.some.inj (hfind.symm.trans hfind')
      refine ⟨_, _, callAll_failed_iff.mpr ⟨_, _, _, _, _, _, hlists, rfl, hall, hfail, rfl⟩,
        rfl, ?_⟩
      rw [Nat.zero_add]
      rfl
    | notFound hfind' _ => exact absurd (hfind.symm.trans hfind') (by simp)
    | flagNotSupported hfind' _ => exact absurd (hfind.symm.trans hfind') (by simp)

/-- Dispatching a command comes to exactly what its tokens route. -/
theorem dispatch_eq_some_iff :
    dispatch execute (.ofTokens name tokens) desk = some ⟨outcome, effects, last⟩ ↔
      Routes execute name tokens desk outcome effects last := by
  cases hfind : desk.registry.get? name (leadingFlag tokens) with
  | none => exact dispatch_eq_some_iff_of_none hfind
  | some definition => exact dispatch_eq_some_iff_of_some hfind

/-- Dispatching a command does not return exactly when a call of its definition does not. -/
theorem dispatch_eq_none_iff :
    dispatch execute (.ofTokens name tokens) desk = none ↔
      ∃ definition, desk.registry.get? name (leadingFlag tokens) = some definition ∧
        SomeHangs (definition.call execute) (argumentLists tokens) desk := by
  cases hfind : desk.registry.get? name (leadingFlag tokens) with
  | none =>
    rw [dispatch, Turn.desk_bind_apply, findMatch_ofTokens_of_none hfind]
    constructor
    · intro h
      exact absurd h (by cases tokens.find? isFlag <;> exact Option.some_ne_none _)
    · rintro ⟨definition, hsome, -⟩
      simp at hsome
  | some definition =>
    rw [dispatch_of_some hfind, Turn.bind_eq_none_iff, callAll_eq_none_iff]
    constructor
    · rintro (hhangs | ⟨⟨⟨n, failure?⟩, first, mid⟩, -, hnext⟩)
      · exact ⟨definition, rfl, hhangs⟩
      · cases failure? <;> exact absurd hnext (Option.some_ne_none _)
    · rintro ⟨definition', hsome, hhangs⟩
      obtain rfl := Option.some.inj hsome
      exact Or.inl hhangs

end Dispatch

/-- A line is executed as the command of a name with the tokens behind it. -/
structure RoutedAs (line name : String) (tokens : List String) : Prop where
  /-- What the line comes to is what its tokens route, and it is remembered afterwards. -/
  outcome : ∀ depth desk result effects last,
    executeLine (depth + 1) line desk = some ⟨result, effects, last⟩ ↔
      ∃ outcome after, Routes (executeLine depth) name tokens desk outcome effects after ∧
        result = .ok outcome ∧ last = { after with history := after.history.add line }
  /-- The line does not return only if a call of its definition does not. -/
  hangs : ∀ depth desk, executeLine (depth + 1) line desk = none ↔
    ∃ definition, desk.registry.get? name (leadingFlag tokens) = some definition ∧
      SomeHangs (definition.call (executeLine depth)) (argumentLists tokens) desk
  /-- Without a flag there is one call with every token. -/
  plain : tokens.any isFlag = false → argumentLists tokens = [tokens]
  /-- With flags there is one call for each. -/
  flagged : tokens.any isFlag = true → (argumentLists tokens).length = tokens.countP isFlag
  /-- The calls for flags share out the arguments behind the first flag. -/
  shared : tokens.any isFlag = true →
    (argumentLists tokens).flatten = (tokens.dropWhile (!isFlag ·)).filter (!isFlag ·)
  /-- The call for a flag has the tokens strictly between it and the next flag or the end. -/
  between : ∀ before flag between rest, tokens = before ++ flag :: (between ++ rest) →
    isFlag flag = true → (∀ token ∈ between, isFlag token = false) →
    rest.head?.all isFlag = true → (argumentLists tokens)[before.countP isFlag]? = some between

/-- A line that is read as an invocation is dispatched, and remembered afterwards. -/
theorem executeLine_of_parse {line : String} {i : Invocation}
    (h : Invocation.parse line = .ok i) (depth : Nat) :
    executeLine (depth + 1) line = (dispatch (executeLine depth) i >>= fun outcome => do
      Turn.change fun desk => { desk with history := desk.history.add line }
      pure (.ok outcome)) := by
  rw [executeLine, h]

/-- Every line with a token is routed by the name that its first token is in lowercase, and the
tokens behind it: by one definition, call by call, with every argument behind the first flag handed
over once and in order. -/
theorem routedAs_of_tokenize {line name : String} {tokens : List String}
    (h : Token.tokenize line = name :: tokens) :
    RoutedAs line (Text.lowercase name) tokens := by
  have hparse := Invocation.parse_of_tokenize h
  refine ⟨?_, ?_, ?_, ?_, ?_, ?_⟩
  · intro depth desk result effects last
    rw [executeLine_of_parse hparse, Turn.bind_eq_some_iff]
    constructor
    · rintro ⟨⟨outcome, first, after⟩, second, hdispatch, hnext, hdone⟩
      obtain rfl := Option.some.inj hnext
      obtain ⟨rfl, rfl, rfl⟩ := (Turn.Done.mk.injEq ..).mp hdone
      rw [List.nil_append, List.append_nil]
      exact ⟨outcome, after, dispatch_eq_some_iff.mp hdispatch, rfl, rfl⟩
    · rintro ⟨outcome, after, hroutes, rfl, rfl⟩
      refine ⟨_, _, dispatch_eq_some_iff.mpr hroutes, rfl, ?_⟩
      rw [List.nil_append, List.append_nil]
  · intro depth desk
    rw [executeLine_of_parse hparse, Turn.bind_eq_none_iff, dispatch_eq_none_iff]
    constructor
    · rintro (hhangs | ⟨first, -, hnext⟩)
      · exact hhangs
      · exact absurd hnext (Option.some_ne_none _)
    · exact Or.inl
  · intro hflags
    rw [argumentLists, hflags]
    rfl
  · intro hflags
    rw [argumentLists, if_pos hflags, length_argumentGroups]
  · intro hflags
    rw [argumentLists, if_pos hflags, flatten_argumentGroups]
  · rintro before flag between rest rfl hflag hbetween hrest
    have hflags : (before ++ flag :: (between ++ rest)).any isFlag = true := by simp [hflag]
    rw [argumentLists, if_pos hflags]
    exact getElem?_argumentGroups hflag hbetween hrest before

/-- Quotes, repeated flags, an empty group and an argument before the first flag. -/
theorem routedAs_set :
    Token.tokenize "SET a -x \"1 2\" 3 -y -x 4" = ["SET", "a", "-x", "1 2", "3", "-y", "-x", "4"] ∧
      RoutedAs "SET a -x \"1 2\" 3 -y -x 4" "set" ["a", "-x", "1 2", "3", "-y", "-x", "4"] ∧
      argumentLists ["a", "-x", "1 2", "3", "-y", "-x", "4"] = [["1 2", "3"], [], ["4"]] := by
  have hname : Text.lowercase "SET" = "set" := by decide +kernel
  have htokens : Token.tokenize "SET a -x \"1 2\" 3 -y -x 4" =
      ["SET", "a", "-x", "1 2", "3", "-y", "-x", "4"] := by decide +kernel
  refine ⟨htokens, ?_, by decide +kernel⟩
  rw [← hname]
  exact routedAs_of_tokenize htokens

end CommandConsole
