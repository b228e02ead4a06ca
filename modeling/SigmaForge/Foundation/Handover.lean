import SigmaForge.Foundation.Parts

/-!
# Requests that are handed over

A request decides first, by what it reads, which service it belongs to.  If the services have
tables of their own, then every run of the requests is a run of each of the services, and a
service serves what has been decided to be its own.
-/

namespace SigmaForge

namespace Program

variable
    {ε Op α β : Type}
    {Answer : Op → Type}

/-- The program can end with the result, if it is answered accordingly. -/
def Yields : Program ε Answer α → Except ε α → Prop
  | .ret value, result => result = .ok value
  | .raise error, result => result = .error error
  | .call _ next, result => ∃ answer, (next answer).Yields result

theorem yields_of_outcome
    {program : Program ε Answer α}
    {result : Except ε α}
    (isOutcome : program.outcome = some result) :
    program.Yields result := by
  cases program with
  | ret value => exact (Option.some.inj isOutcome).symm
  | raise error => exact (Option.some.inj isOutcome).symm
  | call op next => cases isOutcome

end Program

/-- A program that follows a protocol issues only what the protocol allows somewhere. -/
theorem Follows.only
    {ε Op Phase α : Type}
    {Answer : Op → Type}
    {protocol : Protocol ε Answer Phase}
    {phase : Phase}
    {program : Program ε Answer α}
    {post : Phase → Except ε α → Prop}
    {allowed : Op → Prop}
    (follows : Follows protocol phase program post)
    (isAllowed : ∀ phase op, protocol.allowed phase op → allowed op) :
    program.Only allowed := by
  induction program generalizing phase with
  | ret value => trivial
  | raise error => trivial
  | call op next inductionHypothesis =>
      refine ⟨isAllowed phase op follows.1, fun answer => ?_⟩
      exact inductionHypothesis answer (follows.2 answer)

namespace ReadCommitted

section Handover

variable
    {Store Key Write Statement : Type}
    {Answer : Statement → Type}
    {Store' Key' Write' Statement' : Type}
    {Answer' : Statement' → Type}
    {ε ε' Call Call' Decision Response α Phase : Type}
    {schema : Schema Store Key Write Answer}
    {schema' : Schema Store' Key' Write' Answer'}
    [DecidableEq Key]
    [DecidableEq Key']

/-- Requests that decide first, and the service that some of them are handed over to. -/
structure Desk (part : Part schema schema') (ε ε' Call Call' Decision Response α Phase : Type) where
  failure' : ε'
  /-- What a request does to decide, and the protocol of this. -/
  decide : Call → Program ε (SessionAnswer Answer) Decision
  protocol : Call → Protocol ε (SessionAnswer Answer) Phase
  start : Phase
  /-- The decision of the request in a phase. -/
  decides : Call → Phase → Except ε Decision → Prop
  /-- What is done then. -/
  route : Call → Decision → Program ε (SessionAnswer Answer) Response
  serve : Call' → Program ε' (SessionAnswer Answer') α
  /-- The call of the service, if the request belongs to it. -/
  handover : Call → Decision → Option Call'
  respond : Call → Except ε' α → Response

variable
    {part : Part schema schema'}
    (desk : Desk part ε ε' Call Call' Decision Response α Phase)

namespace Desk

/-- The program of a request. -/
def body (call : Call) : Program ε (SessionAnswer Answer) Response :=
  (desk.decide call).bind (desk.route call)

/-- The program of a request that is being served. -/
def hosted (call : Call) (program : Program ε' (SessionAnswer Answer') α) :
    Program ε (SessionAnswer Answer) Response :=
  (part.host desk.failure' program).bind fun result => .ret (desk.respond call result)

/-- From some point of a run on, which `recent` describes, the requests follow the protocol,
what a decision rests on stays true, and whatever does not belong to the service leaves its
tables alone. -/
structure Sound (failure : ε) (recent : Db Store Key Write → Prop)
    (means : ProcId → Call → Phase → Db Store Key Write → Prop)
    (grounds : ProcId → Call → Except ε Decision → Db Store Key Write → Prop) : Prop where
  injective : Function.Injective part.key
  moved : ∀ mover db db', Moves mover db db' → recent db → recent db'
  ticked : ∀ db later, db.clock ≤ later → recent db → recent { db with clock := later }
  opens : ∀ pid call db, recent db → Clear pid db → means pid call desk.start db
  proceeds : ∀ pid call phase op answer db db', means pid call phase db →
    (desk.protocol call).allowed phase op → performs schema failure pid op db answer db' →
    means pid call ((desk.protocol call).next phase op answer) db'
  others : ∀ pid call phase other db db', other ≠ pid → Moves other db db' →
    means pid call phase db → means pid call phase db'
  waits : ∀ pid call phase db later, db.clock ≤ later → means pid call phase db →
    means pid call phase { db with clock := later }
  follows : ∀ call, Follows (desk.protocol call) desk.start (desk.decide call) (desk.decides call)
  grounded : ∀ pid call phase decision db, desk.decides call phase decision →
    means pid call phase db → grounds pid call decision db
  lasts : ∀ pid call decision mover db db', Moves mover db db' → grounds pid call decision db →
    grounds pid call decision db'
  timeless : ∀ pid call decision db later, db.clock ≤ later → grounds pid call decision db →
    grounds pid call decision { db with clock := later }
  foreign : ∀ call, (desk.decide call).Only part.Foreign
  own : ∀ call decision call', desk.handover call decision = some call' →
    desk.route call decision = desk.hosted call (desk.serve call')
  other : ∀ call decision, desk.handover call decision = none →
    (desk.route call decision).Only part.Foreign

variable
    (means : ProcId → Call → Phase → Db Store Key Write → Prop)
    (grounds : ProcId → Call → Except ε Decision → Db Store Key Write → Prop)
    (pid : ProcId)
    (db : Db Store Key Write)

/-- How a request ends that does not belong to the service. -/
def EndsElsewhere (call : Call) (result : Except ε Response) : Prop :=
  (∃ error, grounds pid call (.error error) db ∧ result = .error error) ∨
    ∃ decision, grounds pid call (.ok decision) db ∧
      desk.handover call decision = none ∧ (desk.route call decision).Yields result

/-- The request belongs to the service. -/
def Belongs (call : Call) (call' : Call') : Prop :=
  ∃ decision, grounds pid call (.ok decision) db ∧
    desk.handover call decision = some call'

/-- How far a request has come, and its call of the service. -/
inductive Delegates : Option (Call × Status ε (SessionAnswer Answer) Response) →
    Option (Call' × Status ε' (SessionAnswer Answer') α) → Prop
  | idle : Delegates none none
  | deciding {call : Call} {phase : Phase} {rest : Program ε (SessionAnswer Answer) Decision}
      {program : Program ε (SessionAnswer Answer) Response} :
      means pid call phase db →
      Follows (desk.protocol call) phase rest (desk.decides call) →
      rest.Only part.Foreign →
      (∀ decision, rest ≠ .ret decision) →
      program = rest.bind (desk.route call) →
      Delegates (some (call, .running program)) none
  | elsewhere {call : Call} {decision : Decision}
      {program : Program ε (SessionAnswer Answer) Response} :
      grounds pid call (.ok decision) db →
      desk.handover call decision = none →
      program.Only part.Foreign →
      (∀ result, program.Yields result → (desk.route call decision).Yields result) →
      Delegates (some (call, .running program)) none
  | ended {call : Call} {result : Except ε Response} :
      desk.EndsElsewhere grounds pid db call result →
      Delegates (some (call, .finished result)) none
  | here {call : Call} {call' : Call'} {program : Program ε (SessionAnswer Answer) Response}
      {program' : Program ε' (SessionAnswer Answer') α} :
      desk.Belongs grounds pid db call call' →
      program = desk.hosted call program' →
      Delegates (some (call, .running program)) (some (call', .running program'))
  | returned {call : Call} {call' : Call'} {result : Except ε' α} :
      desk.Belongs grounds pid db call call' →
      Delegates (some (call, .finished (.ok (desk.respond call result))))
        (some (call', .finished result))

variable
    {desk}
    {failure : ε}
    {recent : Db Store Key Write → Prop}
    {means}
    {grounds}
    {pid}
    {db}

section Kept

variable
    {means' : ProcId → Call → Phase → Db Store Key Write → Prop}
    {grounds' : ProcId → Call → Except ε Decision → Db Store Key Write → Prop}
    {db' : Db Store Key Write}

omit [DecidableEq Key] [DecidableEq Key'] in
/-- A request is where it was, if what its phase means and what its decision rests on stay
true. -/
theorem Delegates.mono
    {process : Option (Call × Status ε (SessionAnswer Answer) Response)}
    {process' : Option (Call' × Status ε' (SessionAnswer Answer') α)}
    (delegates : desk.Delegates means grounds pid db process process')
    (keptMeans : ∀ call phase, means pid call phase db → means' pid call phase db')
    (keptGrounds : ∀ call decision, grounds pid call decision db →
      grounds' pid call decision db') :
    desk.Delegates means' grounds' pid db' process process' := by
  have belongs : ∀ {call call'}, desk.Belongs grounds pid db call call' →
      desk.Belongs grounds' pid db' call call' :=
    fun ⟨decision, holds, isHandover⟩ => ⟨decision, keptGrounds _ _ holds, isHandover⟩
  cases delegates with
  | idle => exact .idle
  | deciding holds follows foreign notDecided isProgram =>
      exact .deciding (keptMeans _ _ holds) follows foreign notDecided isProgram
  | elsewhere holds noHandover foreign yields =>
      exact .elsewhere (keptGrounds _ _ holds) noHandover foreign yields
  | ended ends =>
      apply Delegates.ended
      rcases ends with ⟨error, holds, isResult⟩ | ⟨decision, holds, isOther, yields⟩
      · exact .inl ⟨error, keptGrounds _ _ holds, isResult⟩
      · exact .inr ⟨decision, keptGrounds _ _ holds, isOther, yields⟩
  | here isOwn isProgram => exact .here (belongs isOwn) isProgram
  | returned isOwn => exact .returned (belongs isOwn)

end Kept

omit [DecidableEq Key'] in
theorem Sound.belongs_of_moves
    (sound : desk.Sound failure recent means grounds)
    {db' : Db Store Key Write}
    {call : Call}
    {call' : Call'}
    (belongs : desk.Belongs grounds pid db call call')
    (moves : Moves pid db db') :
    desk.Belongs grounds pid db' call call' := by
  obtain ⟨decision, holds, isHandover⟩ := belongs
  exact ⟨decision, sound.lasts pid call _ pid db db' moves holds, isHandover⟩

/-- The run of the service that belongs to a run of the requests. -/
structure Mirrors (desk : Desk part ε ε' Call Call' Decision Response α Phase)
    (means : ProcId → Call → Phase → Db Store Key Write → Prop)
    (grounds : ProcId → Call → Except ε Decision → Db Store Key Write → Prop)
    (config : Config ε (SessionAnswer Answer) Call (Db Store Key Write) Response)
    (config' : Config ε' (SessionAnswer Answer') Call' (Db Store' Key' Write') α) : Prop where
  shows : part.Shows config.shared config'.shared
  delegates : ∀ pid, desk.Delegates means grounds pid config.shared (config.process pid)
    (config'.process pid)

section Read

variable
    {config : Config ε (SessionAnswer Answer) Call (Db Store Key Write) Response}
    {config' : Config ε' (SessionAnswer Answer') Call' (Db Store' Key' Write') α}

omit [DecidableEq Key] [DecidableEq Key'] in
/-- What the service serves has been handed over by a request. -/
theorem Mirrors.belongs
    (mirrors : desk.Mirrors means grounds config config')
    {call' : Call'}
    (serves : Serves config' pid call') :
    ∃ call, Serves config pid call ∧ desk.Belongs grounds pid config.shared call call' := by
  obtain ⟨status, isProcess'⟩ := serves
  have delegates := mirrors.delegates pid
  rw [isProcess'] at delegates
  generalize isProcess : config.process pid = process at delegates
  cases delegates with
  | here belongs isProgram => exact ⟨_, ⟨_, isProcess⟩, belongs⟩
  | returned belongs => exact ⟨_, ⟨_, isProcess⟩, belongs⟩

omit [DecidableEq Key] [DecidableEq Key'] in
/-- A request has ended as the service did, or elsewhere. -/
theorem Mirrors.finished
    (mirrors : desk.Mirrors means grounds config config')
    {call : Call}
    {result : Except ε Response}
    (isFinished : config.process pid = some (call, .finished result)) :
    desk.EndsElsewhere grounds pid config.shared call result ∨
      ∃ call' result', config'.process pid = some (call', .finished result') ∧
        result = .ok (desk.respond call result') := by
  have delegates := mirrors.delegates pid
  rw [isFinished] at delegates
  generalize isProcess' : config'.process pid = process' at delegates
  cases delegates with
  | ended ends => exact .inl ends
  | returned belongs => exact .inr ⟨_, _, rfl, rfl⟩

end Read

section Run

variable
    (sound : desk.Sound failure recent means grounds)
    {config : Config ε (SessionAnswer Answer) Call (Db Store Key Write) Response}
    {config' : Config ε' (SessionAnswer Answer') Call' (Db Store' Key' Write') α}
    {shared : Db Store Key Write}
    {shared' : Db Store' Key' Write'}

include sound

omit [DecidableEq Key'] in
/-- One request has moved, and so has the service. -/
theorem Sound.mirrors_of_moved
    (mirrors : desk.Mirrors means grounds config config')
    (moves : Moves pid config.shared shared)
    (shows : part.Shows shared shared')
    {moved : Call × Status ε (SessionAnswer Answer) Response}
    {moved' : Option (Call' × Status ε' (SessionAnswer Answer') α)}
    (delegates : desk.Delegates means grounds pid shared (some moved) moved') :
    desk.Mirrors means grounds ⟨shared, Function.update config.process pid (some moved)⟩
      ⟨shared', Function.update config'.process pid moved'⟩ := by
  refine ⟨shows, fun other => ?_⟩
  by_cases isOwn : other = pid
  · subst isOwn
    simp only [Function.update_self]
    exact delegates
  · simp only [Function.update_of_ne isOwn]
    exact (mirrors.delegates other).mono
      (fun call phase => sound.others other call phase pid _ _ (Ne.symm isOwn) moves)
      fun call decision => sound.lasts other call decision pid _ _ moves

omit [DecidableEq Key'] in
/-- A request that does not belong to the service, or does not yet, has moved. -/
theorem Sound.mirrors_of_invisible
    (mirrors : desk.Mirrors means grounds config config')
    (moves : Moves pid config.shared shared)
    (shows : part.Shows shared config'.shared)
    (isAbsent : config'.process pid = none)
    {moved : Call × Status ε (SessionAnswer Answer) Response}
    (delegates : desk.Delegates means grounds pid shared (some moved) none) :
    desk.Mirrors means grounds ⟨shared, Function.update config.process pid (some moved)⟩
      config' := by
  have mirrored := sound.mirrors_of_moved mirrors moves shows delegates
  rw [← isAbsent, Function.update_eq_self] at mirrored
  exact mirrored

/-- A request that is deciding has moved: it goes on deciding, is handed over, or belongs to
another service. -/
theorem Sound.mirrors_of_deciding
    (mirrors : desk.Mirrors means grounds config config')
    (moves : Moves pid config.shared shared)
    (shows : part.Shows shared config'.shared)
    (isAbsent : config'.process pid = none)
    {call : Call}
    {phase : Phase}
    {rest : Program ε (SessionAnswer Answer) Decision}
    (holds : means pid call phase shared)
    (follows : Follows (desk.protocol call) phase rest (desk.decides call))
    (foreign : rest.Only part.Foreign) :
    ∃ later, Steps (machine schema' desk.failure' Call') desk.serve config' later ∧
      desk.Mirrors means grounds ⟨shared, Function.update config.process pid
        (some (call, .running (rest.bind (desk.route call))))⟩ later := by
  cases rest with
  | ret decision =>
      have decided : grounds pid call (.ok decision) shared :=
        sound.grounded pid call phase _ shared follows holds
      cases isHandover : desk.handover call decision with
      | none =>
          refine ⟨config', .refl, ?_⟩
          exact sound.mirrors_of_invisible mirrors moves shows isAbsent
            (.elsewhere decided isHandover (sound.other call decision isHandover)
              fun _ yields => yields)
      | some call' =>
          refine ⟨_, .single (.start pid call' isAbsent), ?_⟩
          exact sound.mirrors_of_moved mirrors moves shows
            (.here ⟨decision, decided, isHandover⟩ (sound.own call decision call' isHandover))
  | raise error =>
      refine ⟨config', .refl, ?_⟩
      exact sound.mirrors_of_invisible mirrors moves shows isAbsent
        (.deciding holds follows foreign (fun _ isRet => nomatch isRet) rfl)
  | call op next =>
      refine ⟨config', .refl, ?_⟩
      exact sound.mirrors_of_invisible mirrors moves shows isAbsent
        (.deciding holds follows foreign (fun _ isRet => nomatch isRet) rfl)

/-- One operation of a request. -/
theorem Sound.mirrors_of_performed
    (mirrors : desk.Mirrors means grounds config config')
    (settled' : Settled schema' config')
    {call : Call}
    {op : SessionOp Statement}
    {next : Except ε (SessionAnswer Answer op) → Program ε (SessionAnswer Answer) Response}
    {answer : Except ε (SessionAnswer Answer op)}
    (isRunning : config.process pid = some (call, .running (.call op next)))
    (performed : performs schema failure pid op config.shared answer shared) :
    ∃ later, Steps (machine schema' desk.failure' Call') desk.serve config' later ∧
      desk.Mirrors means grounds ⟨shared, Function.update config.process pid
        (some (call, .running (next answer)))⟩ later := by
  have moves := performs_moves schema performed
  have delegates := mirrors.delegates pid
  rw [isRunning] at delegates
  generalize isProcess : config'.process pid = process' at delegates
  have invisible : process' = none → part.Foreign op → part.Shows shared config'.shared := by
    rintro rfl isForeign
    exact mirrors.shows.performs_foreign (settled'.clear_of_idle isProcess) isForeign performed
  cases delegates with
  | @deciding _ phase rest _ holds follows foreign notDecided isProgram =>
      cases rest with
      | ret decision => exact absurd rfl (notDecided decision)
      | raise error => cases isProgram
      | call op' next' =>
          cases isProgram
          exact sound.mirrors_of_deciding mirrors moves
            (invisible rfl foreign.1) isProcess
            (sound.proceeds pid call phase op answer _ _ holds follows.1 performed)
            (follows.2 answer) (foreign.2 answer)
  | elsewhere decided noHandover foreign yields =>
      refine ⟨config', .refl, ?_⟩
      exact sound.mirrors_of_invisible mirrors moves (invisible rfl foreign.1)
        isProcess (.elsewhere (sound.lasts pid call _ pid _ _ moves decided) noHandover
          (foreign.2 answer) fun result yielded => yields result ⟨answer, yielded⟩)
  | @here _ call' _ program' belongs isProgram =>
      cases program' with
      | ret value => cases isProgram
      | raise error => cases isProgram
      | call op' next' =>
          cases isProgram
          obtain ⟨shared', performed', shows⟩ :=
            mirrors.shows.performs_own desk.failure' sound.injective performed
          refine ⟨_, .single (.perform isProcess performed'), ?_⟩
          exact sound.mirrors_of_moved mirrors moves shows
            (.here (sound.belongs_of_moves belongs moves) rfl)

/-- The end of a request. -/
theorem Sound.mirrors_of_finished
    (mirrors : desk.Mirrors means grounds config config')
    (settled' : Settled schema' config')
    {call : Call}
    {program : Program ε (SessionAnswer Answer) Response}
    {result : Except ε Response}
    (isRunning : config.process pid = some (call, .running program))
    (isOutcome : program.outcome = some result) :
    ∃ later, Steps (machine schema' desk.failure' Call') desk.serve config' later ∧
      desk.Mirrors means grounds ⟨config.shared.release pid,
        Function.update config.process pid (some (call, .finished result))⟩ later := by
  have moves := release_moves pid config.shared
  have delegates := mirrors.delegates pid
  rw [isRunning] at delegates
  generalize isProcess : config'.process pid = process' at delegates
  have invisible : process' = none →
      part.Shows (config.shared.release pid) config'.shared := by
    rintro rfl
    exact mirrors.shows.release_of_clear (settled'.clear_of_idle isProcess)
  cases delegates with
  | @deciding _ phase rest _ holds follows foreign notDecided isProgram =>
      cases rest with
      | ret decision => exact absurd rfl (notDecided decision)
      | raise error =>
          subst isProgram
          obtain rfl : Except.error error = result := Option.some.inj isOutcome
          refine ⟨config', .refl, ?_⟩
          exact sound.mirrors_of_invisible mirrors moves (invisible rfl) isProcess
            (.ended (.inl ⟨error, sound.lasts pid call _ pid _ _ moves
              (sound.grounded pid call phase _ config.shared follows holds), rfl⟩))
      | call op next =>
          subst isProgram
          cases isOutcome
  | elsewhere decided noHandover foreign yields =>
      refine ⟨config', .refl, ?_⟩
      exact sound.mirrors_of_invisible mirrors moves (invisible rfl) isProcess
        (.ended (.inr ⟨_, sound.lasts pid call _ pid _ _ moves decided, noHandover,
          yields result (Program.yields_of_outcome isOutcome)⟩))
  | @here _ call' _ program' belongs isProgram =>
      cases isOutcome' : program'.outcome with
      | none =>
          cases program' with
          | ret value => cases isOutcome'
          | raise error => cases isOutcome'
          | call op next =>
              subst isProgram
              cases isOutcome
      | some result' =>
          have isEnd : program = .ret (desk.respond call result') := by
            rw [isProgram, hosted, part.outcome_host desk.failure' isOutcome']
            rfl
          subst isEnd
          obtain rfl : Except.ok (desk.respond call result') = result :=
            Option.some.inj isOutcome
          refine ⟨_, .single (.finish isProcess isOutcome'), ?_⟩
          exact sound.mirrors_of_moved mirrors moves (mirrors.shows.release pid)
            (.returned (sound.belongs_of_moves belongs moves))

omit [DecidableEq Key'] in
/-- A later state is a recent one, too. -/
theorem Sound.recent_of_step
    (isRecent : recent config.shared)
    {config₂ : Config ε (SessionAnswer Answer) Call (Db Store Key Write) Response}
    (step : Step (machine schema failure Call) desk.body config config₂) :
    recent config₂.shared := by
  cases step with
  | start pid call isIdle => exact isRecent
  | perform isRunning performed =>
      exact sound.moved _ _ _ (performs_moves schema performed) isRecent
  | finish isRunning isOutcome => exact sound.moved _ _ _ (release_moves _ _) isRecent
  | environment passes =>
      obtain ⟨later, isLater, rfl⟩ := passes
      exact sound.ticked _ later isLater isRecent

/-- Every step of the requests is one of the service, or invisible to it. -/
theorem Sound.mirrors_of_step
    (mirrors : desk.Mirrors means grounds config config')
    (settled : Settled schema config)
    (settled' : Settled schema' config')
    (isRecent : recent config.shared)
    {config₂ : Config ε (SessionAnswer Answer) Call (Db Store Key Write) Response}
    (step : Step (machine schema failure Call) desk.body config config₂) :
    ∃ later, Steps (machine schema' desk.failure' Call') desk.serve config' later ∧
      desk.Mirrors means grounds config₂ later := by
  cases step with
  | start pid call isIdle =>
      have isAbsent : config'.process pid = none := by
        have delegates := mirrors.delegates pid
        rw [isIdle] at delegates
        generalize config'.process pid = process' at delegates
        cases delegates
        rfl
      have clear : Clear pid config.shared := settled.clear_of_idle isIdle
      exact sound.mirrors_of_deciding mirrors (moves_refl pid config.shared) mirrors.shows isAbsent
        (sound.opens pid call config.shared isRecent clear) (sound.follows call)
        (sound.foreign call)
  | perform isRunning performed =>
      exact sound.mirrors_of_performed mirrors settled' isRunning performed
  | finish isRunning isOutcome =>
      exact sound.mirrors_of_finished mirrors settled' isRunning isOutcome
  | environment passes =>
      obtain ⟨later, isLater, rfl⟩ := passes
      refine ⟨_, .single (.environment ⟨later, mirrors.shows.clock ▸ isLater, rfl⟩), ?_⟩
      refine ⟨mirrors.shows.tick later, fun pid => (mirrors.delegates pid).mono ?_ ?_⟩
      · exact fun call phase => sound.waits pid call phase config.shared later isLater
      · exact fun call decision => sound.timeless pid call decision config.shared later isLater

/-- From some point on, every run of the requests is a run of the service, which serves the
requests that belong to it. -/
theorem Sound.mirrors_of_steps
    {initial : Store}
    {initial' : Store'}
    {clock clock' : Nat}
    (reachable : Reachable (machine schema failure Call) desk.body (Db.start initial clock) config)
    (reachable' : Reachable (machine schema' desk.failure' Call') desk.serve
      (Db.start initial' clock') config')
    (mirrors : desk.Mirrors means grounds config config')
    (isRecent : recent config.shared)
    {after : Config ε (SessionAnswer Answer) Call (Db Store Key Write) Response}
    (steps : Steps (machine schema failure Call) desk.body config after) :
    recent after.shared ∧ ∃ after',
      Reachable (machine schema' desk.failure' Call') desk.serve (Db.start initial' clock')
        after' ∧
      desk.Mirrors means grounds after after' := by
  induction steps with
  | refl => exact ⟨isRecent, config', reachable', mirrors⟩
  | tail steps step inductionHypothesis =>
      obtain ⟨isRecent', after', isReachable, mirrors'⟩ := inductionHypothesis
      obtain ⟨later, steps', mirrored⟩ := sound.mirrors_of_step mirrors'
        (settled_of_reachable (reachable.trans steps)) (settled_of_reachable isReachable)
        isRecent' step
      exact ⟨sound.recent_of_step isRecent' step, later, isReachable.trans steps', mirrored⟩

/-- Every run of the requests is a run of the service, and what the requests rest on may be
narrowed down at any point for those that have not started. -/
theorem Sound.exists_mirror
    {recent' : Db Store Key Write → Prop}
    {means' : ProcId → Call → Phase → Db Store Key Write → Prop}
    {grounds' : ProcId → Call → Except ε Decision → Db Store Key Write → Prop}
    (sound' : desk.Sound failure recent' means' grounds')
    {initial : Store}
    {clock : Nat}
    (isRecent : recent (Db.start initial clock))
    (reachable : Reachable (machine schema failure Call) desk.body (Db.start initial clock) config)
    (isRecent' : recent' config.shared)
    (keptMeans : ∀ pid call phase, config.process pid ≠ none →
      means pid call phase config.shared → means' pid call phase config.shared)
    (keptGrounds : ∀ pid call decision, config.process pid ≠ none →
      grounds pid call decision config.shared → grounds' pid call decision config.shared)
    {after : Config ε (SessionAnswer Answer) Call (Db Store Key Write) Response}
    (steps : Steps (machine schema failure Call) desk.body config after) :
    ∃ after', Reachable (machine schema' desk.failure' Call') desk.serve
        (Db.start (part.store initial) clock) after' ∧
      desk.Mirrors means' grounds' after after' := by
  have mirrors : desk.Mirrors means grounds (Config.initial (Db.start initial clock))
      (Config.initial (Db.start (part.store initial) clock)) :=
    ⟨Part.shows_start initial clock, fun pid => .idle⟩
  obtain ⟨_, config', isReachable, mirrored⟩ :=
    sound.mirrors_of_steps .refl .refl mirrors isRecent reachable
  have narrowed : desk.Mirrors means' grounds' config config' := by
    refine ⟨mirrored.shows, fun pid => ?_⟩
    have delegates := mirrored.delegates pid
    by_cases isIdle : config.process pid = none
    · rw [isIdle] at delegates ⊢
      generalize config'.process pid = process' at delegates ⊢
      cases delegates
      exact .idle
    · exact delegates.mono (fun call phase => keptMeans pid call phase isIdle)
        fun call decision => keptGrounds pid call decision isIdle
  obtain ⟨_, result⟩ := sound'.mirrors_of_steps reachable isReachable narrowed isRecent' steps
  exact result

end Run

end Desk

end Handover

end ReadCommitted
end SigmaForge
