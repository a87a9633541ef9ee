import CommandConsole.Proofs.Script.Host

/-!
# Sessions in lockstep

Two sessions are related in some way. Where their scripts keep pace line by line, they come to
related ends and waits. Where they look the same to their hosts, and requests and waiting keep them
related, every step gives both hosts the same answer and leaves the sessions related; what a
cancellation does is asked for only where a host cancels.
-/

namespace CommandConsole.Script

variable {α : Type}

theorem rel_imp {β γ : Type} {R S : β → γ → Prop} {b? : Option β} {c? : Option γ}
    (h : Option.Rel R b? c?) (himp : ∀ {b c}, R b c → S b c) : Option.Rel S b? c? := by
  cases h with
  | none => exact .none
  | some h => exact .some (himp h)

theorem rel_map {β γ δ ε : Type} {R : β → γ → Prop} {S : δ → ε → Prop} {f : β → δ}
    {g : γ → ε} {b? : Option β} {c? : Option γ} (h : Option.Rel R b? c?)
    (himp : ∀ {b c}, R b c → S (f b) (g c)) : Option.Rel S (b?.map f) (c?.map g) := by
  cases h with
  | none => exact .none
  | some h => exact .some (himp h)

namespace Session

/-- The sessions agree in what a script in flight goes by. -/
structure SameCourse (s t : Session α) : Prop where
  settings : t.settings = s.settings
  cancelled : t.cancelled = s.cancelled
  now : t.now = s.now
  waitWins : t.waitWins = s.waitWins
  ties : t.ties = s.ties

/-- A wait comes to the same in both sessions. -/
theorem SameCourse.waitUntil_cases {s t : Session α} (h : SameCourse s t) (deadline : Option Nat)
    (wake : Nat) :
    (∃ now ties, s.waitUntil deadline wake = .over (s.clocked now ties) ∧
      t.waitUntil deadline wake = .over (t.clocked now ties)) ∨
    (s.cancelled = true ∧ ∃ ties, s.waitUntil deadline wake = .cut (s.clocked s.now ties) ∧
      t.waitUntil deadline wake = .cut (t.clocked s.now ties)) ∨
    (s.cancelled = false ∧ s.waitUntil deadline wake = .long wake s ∧
      t.waitUntil deadline wake = .long wake t) := by
  rw [waitUntil, waitUntil, h.cancelled, h.now, h.waitWins, h.ties]
  split
  · next hc =>
    split
    · split
      · exact Or.inl ⟨_, _, rfl, rfl⟩
      · exact Or.inr (Or.inl ⟨hc, _, rfl, rfl⟩)
    · exact Or.inr (Or.inl ⟨hc, _, rfl, rfl⟩)
  · next hc =>
    split
    · exact Or.inl ⟨_, _, rfl, rfl⟩
    · split
      · exact Or.inl ⟨_, _, rfl, rfl⟩
      · exact Or.inr (Or.inr ⟨by simpa using hc, rfl, rfl⟩)

/-- Two scripts keep pace: whatever they do with a line and a wait keeps the relation `P` of their
flights and sessions, and where `P` holds, `Q` comes of a panic and of a cancellation. -/
structure Pace (x y : Executor α) (P : Flight → Flight → Session α → Session α → Prop)
    (Q : Session α → Session α → Prop) : Prop where
  id : ∀ {f g s t}, P f g s t → g.id = f.id
  course : ∀ {f g s t}, P f g s t → SameCourse s t
  clocked : ∀ {f g s t} now ties, P f g s t → P f g (s.clocked now ties) (t.clocked now ties)
  note : ∀ {f g s t} happening, P f g s t → P f g (s.note happening) (t.note happening)
  perform : ∀ {f g s t} line, P f g s t →
    Option.Rel (fun p q => p.1 = q.1 ∧ P f g p.2 q.2) (s.perform x f line) (t.perform y g line)
  count : ∀ {f g s t}, P f g s t → P { f with linesExecuted := f.linesExecuted + 1 }
    { g with linesExecuted := g.linesExecuted + 1 } s t
  panic : ∀ {f g s t} text, P f g s t → Q (s.finish f (.failed text)) (t.finish g (.failed text))
  cut : ∀ {f g s t}, P f g s t → s.cancelled = true → Q (s.finishCancelled f) (t.finishCancelled g)

namespace Pace

variable {x y : Executor α} {P : Flight → Flight → Session α → Session α → Prop}
  {Q : Session α → Session α → Prop} {f g : Flight} {s t : Session α} {deadline : Option Nat}

/-- Behind a wait, the scripts go on in the same way if they do so with the lines ahead and where
they wait on. -/
theorem goOn (hpace : Pace x y P Q) (h : P f g s t) {wake : Nat} {rest rest' : List String}
    (hruns : ∀ {s t}, P f g s t →
      Option.Rel Q (runLines x deadline f rest s) (runLines y deadline g rest' t))
    (hpark : s.cancelled = false → Q (s.park f wake rest) (t.park g wake rest')) :
    Option.Rel Q (goOn x deadline f rest (s.waitUntil deadline wake))
      (goOn y deadline g rest' (t.waitUntil deadline wake)) := by
  rcases (hpace.course h).waitUntil_cases deadline wake with
    ⟨now, ties, hs, ht⟩ | ⟨hc, ties, hs, ht⟩ | ⟨hc, hs, ht⟩
  · rw [hs, ht]
    exact hruns (hpace.clocked now ties h)
  · rw [hs, ht]
    exact .some (hpace.cut (hpace.clocked s.now ties h) hc)
  · rw [hs, ht]
    exact .some (hpark hc)

/-- Scripts that keep pace run the lines that they have in common in the same way, if they do so
with the lines behind these. -/
theorem runLines (hpace : Pace x y P Q) {last last' : List String}
    (hlast : ∀ {f g s t}, P f g s t →
      Option.Rel Q (runLines x deadline f last s) (runLines y deadline g last' t))
    (hpark : ∀ {f g s t} wake rest, P f g s t → s.cancelled = false →
      Q (s.park f wake (rest ++ last)) (t.park g wake (rest ++ last')))
    (lines : List String) (h : P f g s t) :
    Option.Rel Q (runLines x deadline f (lines ++ last) s)
      (runLines y deadline g (lines ++ last') t) := by
  induction lines generalizing f g s t with
  | nil => exact hlast h
  | cons line rest ih =>
    have hgoes : ∀ {f g s t} (length : Duration), P f g s t →
        Option.Rel Q (Session.goOn x deadline f (rest ++ last) (s.suspend deadline length))
          (Session.goOn y deadline g (rest ++ last') (t.suspend deadline length)) := by
      intro f g s t length h
      rw [suspend_eq_waitUntil, suspend_eq_waitUntil, (hpace.course h).now]
      exact hpace.goOn h ih (hpark _ rest h)
    have hcourse := hpace.course h
    have hreached := hpace.note (.reached f.id line) h
    rw [List.cons_append, List.cons_append]
    by_cases hc : s.cancelled = true
    · rw [runLines_cancelled hc, runLines_cancelled (hcourse.cancelled.trans hc)]
      exact .some (hpace.cut h hc)
    · rw [Bool.not_eq_true] at hc
      have hc' : t.cancelled = false := hcourse.cancelled.trans hc
      cases hstep : stepOf s.settings line with
      | skip =>
        rw [runLines_skip hc hstep, runLines_skip hc' (hcourse.settings ▸ hstep), hpace.id h]
        exact ih hreached
      | pause announcement length =>
        rw [runLines_pause hc hstep, runLines_pause hc' (hcourse.settings ▸ hstep), hpace.id h]
        exact hgoes length (hpace.note _ hreached)
      | command =>
        rw [runLines_command hc hstep, runLines_command hc' (hcourse.settings ▸ hstep), hpace.id h]
        have hperform := hpace.perform line hreached
        generalize (s.note (.reached f.id line)).perform x f line = p at hperform
        generalize (t.note (.reached f.id line)).perform y g line = q at hperform
        cases hperform with
        | none => exact .none
        | @some p q hpq =>
          obtain ⟨panic?, u⟩ := p
          obtain ⟨panic?', v⟩ := q
          obtain ⟨rfl, huv⟩ : panic? = panic?' ∧ P f g u v := hpq
          rw [Option.bind_some, Option.bind_some]
          cases panic? with
          | none =>
            rw [goOnReturned, goOnReturned, (hpace.course huv).settings]
            exact hgoes _ (hpace.count huv)
          | some text => exact .some (hpace.panic _ huv)

end Pace

end Session

/-- The sessions look the same to hosts that wait and ask for outcomes. -/
structure LooksSame (s t : Session α) : Prop where
  isRunning : t.isRunning = s.isRunning
  now : t.now = s.now
  waits : t.waits = s.waits
  results : t.results = s.results

/-- Related sessions look the same to their hosts and stay related while the hosts request scripts
and wait. -/
structure Lockstep (x y : Executor α) (R : Session α → Session α → Prop) : Prop where
  looksSame : ∀ {s t}, R s t → LooksSame s t
  at_time : ∀ {s t} now, R s t → R { s with now } { t with now }
  request : ∀ {s t} source, R s t →
    (s.request source).1 = (t.request source).1 ∧ R (s.request source).2 (t.request source).2
  wait : ∀ {s t} deadline, R s t → Option.Rel R (s.wait x deadline) (t.wait y deadline)

/-- If the first steps give the same answer, the hosts get the same answers as long as they do from
the steps behind. -/
theorem takeAll_rel {x y : Executor α} {P Q : Session α → Session α → Prop}
    {step step' : HostStep} {steps : List HostStep} {s t : Session α}
    (htake : Option.Rel (fun p q => p.1 = q.1 ∧ P p.2 q.2) (step.take x s) (step'.take y t))
    (hrest : ∀ {u v}, P u v →
      Option.Rel (fun p q => p.1 = q.1 ∧ Q p.2 q.2) (takeAll x steps u) (takeAll y steps v)) :
    Option.Rel (fun p q => p.1 = q.1 ∧ Q p.2 q.2) (takeAll x (step :: steps) s)
      (takeAll y (step' :: steps) t) := by
  rw [takeAll, takeAll]
  generalize step.take x s = p at htake
  generalize step'.take y t = q at htake
  cases htake with
  | none => exact .none
  | @some p q hpq =>
    obtain ⟨answer, u⟩ := p
    obtain ⟨answer', v⟩ := q
    obtain ⟨rfl, huv⟩ : answer = answer' ∧ P u v := hpq
    exact rel_map (hrest huv) fun hpq => ⟨congrArg (answer :: ·) hpq.1, hpq.2⟩

namespace Lockstep

variable {x y : Executor α} {R : Session α → Session α → Prop} {s t : Session α}

/-- The outcome of a request is delivered to both hosts. -/
theorem await (hR : Lockstep x y R) (h : R s t) (ticket : Ticket) :
    Option.Rel (fun p q => p.1 = q.1 ∧ R p.2 q.2) (s.await x ticket) (t.await y ticket) := by
  cases ticket with
  | rejected waits =>
    rw [Session.await, Session.await, (hR.looksSame h).waits, (hR.looksSame h).now]
    split
    · exact rel_map (hR.wait (some s.now) h) fun hpq => ⟨rfl, hpq⟩
    · exact .some ⟨rfl, h⟩
  | run id =>
    have hwait := hR.wait none h
    rw [Session.await, Session.await, (hR.looksSame h).results]
    split
    · exact .some ⟨rfl, h⟩
    · generalize s.wait x none = p at hwait
      generalize t.wait y none = q at hwait
      cases hwait with
      | none => exact .none
      | @some u v huv =>
        rw [Option.bind_some, Option.bind_some, (hR.looksSame huv).results]
        cases u.results.lookup id with
        | none => exact .none
        | some outcome => exact .some ⟨rfl, huv⟩

/-- Both hosts run a script, or are refused. -/
theorem run (hR : Lockstep x y R) (h : R s t) (source : Source) :
    Option.Rel (fun p q => p.1 = q.1 ∧ R p.2 q.2) (s.run x source) (t.run y source) := by
  obtain ⟨hticket, hrequested⟩ := hR.request source h
  rw [Session.run, Session.run]
  rcases hs : s.request source with ⟨ticket, s'⟩
  rcases ht : t.request source with ⟨ticket', t'⟩
  rw [hs, ht] at hticket hrequested
  obtain rfl : ticket = ticket' := hticket
  cases ticket with
  | rejected waits => exact .some ⟨rfl, hrequested⟩
  | run id => exact hR.await hrequested (.run id)

/-- A step gives both hosts the same answer and leaves the sessions related. -/
theorem take (hR : Lockstep x y R) (h : R s t) (step : HostStep)
    (hcancel : step = .cancel → R s.cancel t.cancel) :
    Option.Rel (fun p q => p.1 = q.1 ∧ R p.2 q.2) (step.take x s) (step.take y t) := by
  cases step with
  | run source => exact rel_map (hR.run h source) fun hpq => ⟨congrArg Answer.outcome hpq.1, hpq.2⟩
  | spawn source =>
    obtain ⟨hticket, hrequested⟩ := hR.request source h
    exact .some ⟨congrArg Answer.ticket hticket, hrequested⟩
  | cancel => exact .some ⟨rfl, hcancel rfl⟩
  | sleep length =>
    rw [HostStep.take, HostStep.take, Session.sleep, Session.sleep, (hR.looksSame h).now]
    split
    · exact .some ⟨rfl, h⟩
    · exact rel_map (rel_map (hR.wait (some (s.now + length.wait)) h)
        fun hpq => hR.at_time _ hpq) fun hpq => ⟨rfl, hpq⟩
  | await ticket =>
    exact rel_map (hR.await h ticket) fun hpq => ⟨congrArg Answer.outcome hpq.1, hpq.2⟩
  | waitIdle =>
    rw [HostStep.take, HostStep.take, Session.waitIdle, Session.waitIdle,
      (hR.looksSame h).isRunning]
    split
    · exact rel_map (hR.wait none h) fun hpq => ⟨rfl, hpq⟩
    · exact .some ⟨rfl, h⟩

/-- No number of steps tells the sessions apart. -/
theorem takeAll (hR : Lockstep x y R) {steps : List HostStep} (h : R s t)
    (hcancel : .cancel ∈ steps → ∀ {s t}, R s t → R s.cancel t.cancel) :
    Option.Rel (fun p q => p.1 = q.1 ∧ R p.2 q.2) (takeAll x steps s) (takeAll y steps t) := by
  induction steps generalizing s t with
  | nil => exact .some ⟨rfl, h⟩
  | cons step steps ih =>
    have htake := hR.take h step fun hstep => hcancel (List.mem_cons.mpr (Or.inl hstep.symm)) h
    exact takeAll_rel htake fun huv => ih huv fun hmem => hcancel (List.mem_cons_of_mem _ hmem)

end Lockstep

end CommandConsole.Script
