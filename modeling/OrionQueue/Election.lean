import Mathlib.Logic.Function.Basic
import OrionQueue.Runs

/-!
RunElection on any number of scheduler instances, cut at every call of the package
concurrency and at every other point where the instance can be overtaken. The package
and etcd behind it are a parameter: a call answers with one of the events that can
happen to it, and what the package promises stands in Guarantees. The identity of the
candidate and the pause after a failed session are left out.
-/

namespace OrionQueue.Election

open Runs

variable {Sched Etcd Session Event : Type}

/-- The calls that RunElection makes, each on the state of etcd, of its client and of
whatever is under way between the two. A call that cannot return by the event gives
none. -/
structure Concurrency (Etcd Session Event : Type) where
  start : Etcd
  /-- No session comes with an error. -/
  newSession : Etcd → Event → Option (Option Session × Etcd)
  /-- Campaign tells whether it returned without an error. -/
  campaign : Etcd → Session → Event → Option (Bool × Etcd)
  resign : Etcd → Session → Event → Option Etcd
  close : Etcd → Session → Event → Option Etcd
  /-- What happens without a call: a lease runs out, a request given up is carried out. -/
  elapse : Etcd → Event → Option Etcd
  /-- The lease of the session is alive. -/
  alive : Etcd → Session → Prop

namespace Concurrency

/-- One call with the session of its caller, something that happens without a call, or
nothing. -/
inductive Moves (package : Concurrency Etcd Session Event) : Option Session → Etcd → Etcd → Prop
  | newSession {own etcd event answer after} :
      package.newSession etcd event = some (answer, after) → Moves package own etcd after
  | campaign {etcd session event won after} :
      package.campaign etcd session event = some (won, after) →
      Moves package (some session) etcd after
  | resign {etcd session event after} :
      package.resign etcd session event = some after → Moves package (some session) etcd after
  | close {etcd session event after} :
      package.close etcd session event = some after → Moves package (some session) etcd after
  | elapse {own etcd event after} :
      package.elapse etcd event = some after → Moves package own etcd after
  | idle {own etcd} : Moves package own etcd etcd

inductive Reached (package : Concurrency Etcd Session Event) : Etcd → Prop
  | start : Reached package package.start
  | moved {own etcd after} :
      Reached package etcd → package.Moves own etcd after → Reached package after

/-- What RunElection relies on. A session is issued once, and is elected from the
return of its campaign until it resigns or is closed itself; of the elected sessions
at most one has its lease alive. -/
structure Guarantees (package : Concurrency Etcd Session Event) where
  issued : Etcd → Session → Prop
  elected : Etcd → Session → Prop
  fresh : ∀ etcd event session after,
    package.newSession etcd event = some (some session, after) →
    ¬issued etcd session ∧ issued after session
  issued_kept : ∀ own etcd after session,
    package.Moves own etcd after → issued etcd session → issued after session
  wins : ∀ etcd session event after,
    package.campaign etcd session event = some (true, after) → elected after session
  elected_kept : ∀ own etcd after session, package.Moves own etcd after → own ≠ some session →
    elected etcd session → elected after session
  exclusive : ∀ etcd left right, package.Reached etcd → elected etcd left → elected etcd right →
    package.alive etcd left → package.alive etcd right → left = right

end Concurrency

/-- What RunElection tells its caller. -/
inductive Status where
  | sessionFailed
  | campaigning
  | campaignFailed
  | leader
  | sessionLost
  deriving DecidableEq

/-- Where one call of RunElection stands. -/
inductive Phase (Session : Type) where
  | top
  | opening
  | retrying
  | campaigning (session : Session)
  | failed (session : Session)
  | leading (session : Session)
  | stopping (session : Session) (lost : Bool)
  | resigning (session : Session)
  | closing (session : Session) (last : Bool)
  | returned
  deriving DecidableEq

/-- The goroutine that runs the onLeader of cmd/scheduler. -/
inductive OnLeader where
  | absent
  | begun
  | scheduling
  | leaving
  | finished
  deriving DecidableEq

structure Instance (Session : Type) where
  phase : Phase Session
  /-- The context of RunElection is cancelled. -/
  cancelled : Bool
  onLeader : OnLeader
  isLeader : Bool
  /-- Newest first. -/
  statuses : List Status

namespace Instance

def start : Instance Session := ⟨.top, false, .absent, false, []⟩

def enter (caller : Instance Session) (phase : Phase Session) : Instance Session :=
  { caller with phase := phase }

def notify (caller : Instance Session) (status : Status) : Instance Session :=
  { caller with statuses := status :: caller.statuses }

/-- NewSession has returned. -/
def opened (caller : Instance Session) : Option Session → Instance Session
  | some session => (caller.notify .campaigning).enter (.campaigning session)
  | none =>
      if caller.cancelled then caller.enter .returned
      else (caller.notify .sessionFailed).enter .retrying

/-- Campaign has returned. -/
def campaigned (caller : Instance Session) (session : Session) : Bool → Instance Session
  | true => { (caller.notify .leader).enter (.leading session) with onLeader := .begun }
  | false => caller.enter (.failed session)

/-- The session of a failed campaign is closed. -/
def campaignFailed (caller : Instance Session) : Instance Session :=
  if caller.cancelled then caller.enter .returned
  else (caller.notify .campaignFailed).enter .top

/-- The context that onLeader was given. -/
def leaderCtxDone (caller : Instance Session) : Bool :=
  caller.cancelled || match caller.phase with
    | .stopping _ _ => true
    | _ => false

/-- onLeader has been called and has not returned. -/
def executing (caller : Instance Session) : Bool :=
  match caller.onLeader with
  | .begun | .scheduling | .leaving => true
  | .absent | .finished => false

end Instance

inductive Action (Event : Type) where
  | shutdown
  | check
  | newSession (event : Event)
  | retry (elapsed : Bool)
  | campaign (event : Event)
  | sessionDone
  | ctxDone
  | join
  | resign (event : Event)
  | close (event : Event)
  | begin
  | leave
  | finish

def act (package : Concurrency Etcd Session Event) (etcd : Etcd) (caller : Instance Session) :
    Action Event → Option (Instance Session × Etcd)
  | .shutdown => some ({ caller with cancelled := true }, etcd)
  | .check =>
      match caller.phase with
      | .top => some (caller.enter (if caller.cancelled then .returned else .opening), etcd)
      | _ => none
  | .newSession event =>
      match caller.phase with
      | .opening =>
          (package.newSession etcd event).map fun (session, after) => (caller.opened session, after)
      | _ => none
  | .retry elapsed =>
      match caller.phase with
      | .retrying =>
          -- Both cases of the select may be ready, and either may be taken.
          if elapsed then some (caller.enter .top, etcd)
          else if caller.cancelled then some (caller.enter .returned, etcd)
          else none
      | _ => none
  | .campaign event =>
      match caller.phase with
      | .campaigning session =>
          (package.campaign etcd session event).map fun (won, after) =>
            (caller.campaigned session won, after)
      | _ => none
  | .sessionDone =>
      match caller.phase with
      -- The session may be done at any time, whether its lease is gone or not.
      | .leading session => some ((caller.notify .sessionLost).enter (.stopping session true), etcd)
      | _ => none
  | .ctxDone =>
      match caller.phase with
      | .leading session =>
          if caller.cancelled then some (caller.enter (.stopping session false), etcd) else none
      | _ => none
  | .join =>
      match caller.phase, caller.onLeader with
      | .stopping session lost, .finished =>
          some ({ caller.enter (if lost then .closing session false else .resigning session) with
            onLeader := .absent }, etcd)
      | _, _ => none
  | .resign event =>
      match caller.phase with
      | .resigning session =>
          (package.resign etcd session event).map fun after =>
            (caller.enter (.closing session true), after)
      | _ => none
  | .close event =>
      match caller.phase with
      | .failed session =>
          (package.close etcd session event).map fun after => (caller.campaignFailed, after)
      | .closing session last =>
          (package.close etcd session event).map fun after =>
            (caller.enter (if last then .returned else .top), after)
      | _ => none
  | .begin =>
      match caller.onLeader with
      | .begun => some ({ caller with onLeader := .scheduling, isLeader := true }, etcd)
      | _ => none
  | .leave =>
      match caller.onLeader with
      | .scheduling =>
          if caller.leaderCtxDone then some ({ caller with onLeader := .leaving }, etcd) else none
      | _ => none
  | .finish =>
      match caller.onLeader with
      | .leaving => some ({ caller with onLeader := .finished, isLeader := false }, etcd)
      | _ => none

structure State (Sched Etcd Session : Type) where
  etcd : Etcd
  instances : Sched → Instance Session

def State.start (package : Concurrency Etcd Session Event) : State Sched Etcd Session :=
  ⟨package.start, fun _ => .start⟩

inductive Label (Sched Event : Type) where
  | act (scheduler : Sched) (action : Action Event)
  | elapse (event : Event)

def step [DecidableEq Sched] (package : Concurrency Etcd Session Event)
    (state : State Sched Etcd Session) : Label Sched Event → Option (State Sched Etcd Session)
  | .act scheduler action =>
      (act package state.etcd (state.instances scheduler) action).map fun (next, etcd) =>
        ⟨etcd, Function.update state.instances scheduler next⟩
  | .elapse event => (package.elapse state.etcd event).map fun etcd => { state with etcd := etcd }

variable {package : Concurrency Etcd Session Event}

/-- A step is one action of one instance, or something that no instance has a part in. -/
theorem step_cases [DecidableEq Sched] {state after : State Sched Etcd Session}
    {label : Label Sched Event} (stepped : step package state label = some after) :
    (∃ scheduler action next etcd, label = .act scheduler action ∧
      act package state.etcd (state.instances scheduler) action = some (next, etcd) ∧
      after = ⟨etcd, Function.update state.instances scheduler next⟩) ∨
    ∃ event etcd, label = .elapse event ∧ package.elapse state.etcd event = some etcd ∧
      after = { state with etcd := etcd } := by
  cases label with
  | act scheduler action =>
      obtain ⟨⟨next, etcd⟩, acted, rfl⟩ := Option.map_eq_some_iff.mp stepped
      exact Or.inl ⟨scheduler, action, next, etcd, rfl, acted, rfl⟩
  | elapse event =>
      obtain ⟨etcd, elapsed, rfl⟩ := Option.map_eq_some_iff.mp stepped
      exact Or.inr ⟨event, etcd, rfl, elapsed, rfl⟩

/-- All that an instance can do. -/
inductive Effect (package : Concurrency Etcd Session Event) (etcd : Etcd)
    (caller : Instance Session) : Action Event → Instance Session → Etcd → Prop
  | shutdown : Effect package etcd caller .shutdown { caller with cancelled := true } etcd
  | check (top : caller.phase = .top) :
      Effect package etcd caller .check
        (caller.enter (if caller.cancelled then .returned else .opening)) etcd
  | newSession {event session after} (opening : caller.phase = .opening)
      (answered : package.newSession etcd event = some (session, after)) :
      Effect package etcd caller (.newSession event) (caller.opened session) after
  | retry {elapsed} (retrying : caller.phase = .retrying)
      (ready : elapsed = true ∨ caller.cancelled = true) :
      Effect package etcd caller (.retry elapsed)
        (caller.enter (if elapsed then .top else .returned)) etcd
  | campaign {event session won after} (campaigning : caller.phase = .campaigning session)
      (answered : package.campaign etcd session event = some (won, after)) :
      Effect package etcd caller (.campaign event) (caller.campaigned session won) after
  | sessionDone {session} (leading : caller.phase = .leading session) :
      Effect package etcd caller .sessionDone
        ((caller.notify .sessionLost).enter (.stopping session true)) etcd
  | ctxDone {session} (leading : caller.phase = .leading session)
      (cancelled : caller.cancelled = true) :
      Effect package etcd caller .ctxDone (caller.enter (.stopping session false)) etcd
  | join {session lost} (stopping : caller.phase = .stopping session lost)
      (finished : caller.onLeader = .finished) :
      Effect package etcd caller .join
        { caller.enter (if lost then .closing session false else .resigning session) with
          onLeader := .absent } etcd
  | resign {session event after} (resigning : caller.phase = .resigning session)
      (answered : package.resign etcd session event = some after) :
      Effect package etcd caller (.resign event) (caller.enter (.closing session true)) after
  | closeFailed {session event after} (failed : caller.phase = .failed session)
      (answered : package.close etcd session event = some after) :
      Effect package etcd caller (.close event) caller.campaignFailed after
  | close {session last event after} (closing : caller.phase = .closing session last)
      (answered : package.close etcd session event = some after) :
      Effect package etcd caller (.close event)
        (caller.enter (if last then .returned else .top)) after
  | begin (begun : caller.onLeader = .begun) :
      Effect package etcd caller .begin { caller with onLeader := .scheduling, isLeader := true } etcd
  | leave (scheduling : caller.onLeader = .scheduling) (done : caller.leaderCtxDone = true) :
      Effect package etcd caller .leave { caller with onLeader := .leaving } etcd
  | finish (leaving : caller.onLeader = .leaving) :
      Effect package etcd caller .finish { caller with onLeader := .finished, isLeader := false } etcd

theorem act_effect {etcd after : Etcd} {caller next : Instance Session} {action : Action Event}
    (acted : act package etcd caller action = some (next, after)) :
    Effect package etcd caller action next after := by
  cases action with
  | shutdown =>
      cases acted
      exact .shutdown
  | check =>
      simp only [act] at acted
      split at acted <;> cases acted
      exact .check (by assumption)
  | newSession event =>
      simp only [act] at acted
      split at acted
      · obtain ⟨⟨session, _⟩, answered, same⟩ := Option.map_eq_some_iff.mp acted
        cases same
        exact .newSession (by assumption) answered
      · cases acted
  | retry elapsed =>
      simp only [act] at acted
      split at acted
      · rename_i retrying
        cases elapsed with
        | true =>
            cases acted
            exact .retry retrying (.inl rfl)
        | false =>
            simp only [Bool.false_eq_true, if_false, Option.ite_none_right_eq_some] at acted
            obtain ⟨cancelled, same⟩ := acted
            cases same
            exact .retry retrying (.inr cancelled)
      · cases acted
  | campaign event =>
      simp only [act] at acted
      split at acted
      · obtain ⟨⟨won, _⟩, answered, same⟩ := Option.map_eq_some_iff.mp acted
        cases same
        exact .campaign (by assumption) answered
      · cases acted
  | sessionDone =>
      simp only [act] at acted
      split at acted <;> cases acted
      exact .sessionDone (by assumption)
  | ctxDone =>
      simp only [act] at acted
      split at acted
      · split at acted <;> cases acted
        exact .ctxDone (by assumption) (by assumption)
      · cases acted
  | join =>
      simp only [act] at acted
      split at acted <;> cases acted
      exact .join (by assumption) (by assumption)
  | resign event =>
      simp only [act] at acted
      split at acted
      · obtain ⟨_, answered, same⟩ := Option.map_eq_some_iff.mp acted
        cases same
        exact .resign (by assumption) answered
      · cases acted
  | close event =>
      simp only [act] at acted
      split at acted
      · obtain ⟨_, answered, same⟩ := Option.map_eq_some_iff.mp acted
        cases same
        exact .closeFailed (by assumption) answered
      · obtain ⟨_, answered, same⟩ := Option.map_eq_some_iff.mp acted
        cases same
        exact .close (by assumption) answered
      · cases acted
  | begin =>
      simp only [act] at acted
      split at acted <;> cases acted
      exact .begin (by assumption)
  | leave =>
      simp only [act] at acted
      split at acted
      · split at acted <;> cases acted
        exact .leave (by assumption) (by assumption)
      · cases acted
  | finish =>
      simp only [act] at acted
      split at acted <;> cases acted
      exact .finish (by assumption)

/-! ### Sessions -/

def Phase.session : Phase Session → Option Session
  | .campaigning session | .failed session | .leading session | .stopping session _
  | .resigning session | .closing session _ => some session
  | .top | .opening | .retrying | .returned => none

/-- The session that was elected, until the instance resigns or gives it up. -/
def Phase.won : Phase Session → Option Session
  | .leading session | .stopping session _ | .resigning session => some session
  | _ => none

theorem won_session {phase : Phase Session} {session : Session} (won : phase.won = some session) :
    phase.session = some session := by
  cases phase <;> simp_all [Phase.won, Phase.session]

/-- What an action does to etcd and to the session of the acting instance. -/
structure Acted (package : Concurrency Etcd Session Event) (etcd : Etcd)
    (caller next : Instance Session) (after : Etcd) : Prop where
  moves : package.Moves caller.phase.session etcd after
  session : ∀ session, next.phase.session = some session →
    caller.phase.session = some session ∨
    ∃ event, package.newSession etcd event = some (some session, after)
  won : ∀ session, next.phase.won = some session →
    (caller.phase.won = some session ∧ after = etcd) ∨
    ∃ event, package.campaign etcd session event = some (true, after)

section Acted
variable {etcd after : Etcd} {caller next : Instance Session}

theorem acted_keeps (session : next.phase.session = caller.phase.session)
    (won : next.phase.won = caller.phase.won) : Acted package etcd caller next etcd where
  moves := .idle
  session _ mine := Or.inl (session ▸ mine)
  won _ mine := Or.inl ⟨won ▸ mine, rfl⟩

/-- The instance goes on without being elected. -/
theorem acted_leaves (moves : package.Moves caller.phase.session etcd after)
    (bare : next.phase.won = none)
    (session : ∀ session, next.phase.session = some session →
      caller.phase.session = some session) : Acted package etcd caller next after where
  moves := moves
  session _ mine := Or.inl (session _ mine)
  won _ mine := by simp [bare] at mine

theorem acted_opens {event : Event} {session : Option Session}
    (answered : package.newSession etcd event = some (session, after)) :
    Acted package etcd caller (caller.opened session) after := by
  cases session with
  | some session =>
      refine ⟨.newSession answered, ?_, ?_⟩
      · rintro _ ⟨⟩
        exact Or.inr ⟨event, answered⟩
      · rintro _ ⟨⟩
  | none =>
      refine acted_leaves (.newSession answered) ?_ ?_ <;> simp only [Instance.opened]
      · split <;> rfl
      · split <;> rintro _ ⟨⟩

theorem acted_campaigns {event : Event} {session : Session} {won : Bool}
    (campaigning : caller.phase = .campaigning session)
    (answered : package.campaign etcd session event = some (won, after)) :
    Acted package etcd caller (caller.campaigned session won) after := by
  have own : caller.phase.session = some session := by rw [campaigning]; rfl
  have moves : package.Moves caller.phase.session etcd after := own ▸ .campaign answered
  cases won with
  | true =>
      refine ⟨moves, fun _ mine => Or.inl (own.trans mine), ?_⟩
      rintro _ ⟨⟩
      exact Or.inr ⟨event, answered⟩
  | false => exact acted_leaves moves rfl fun _ mine => own.trans mine

end Acted

theorem act_acted {etcd after : Etcd} {caller next : Instance Session} {action : Action Event}
    (acted : act package etcd caller action = some (next, after)) :
    Acted package etcd caller next after := by
  cases act_effect acted with
  | shutdown | begin | leave | finish => exact acted_keeps rfl rfl
  | check _ =>
      refine acted_leaves .idle ?_ ?_ <;> cases caller.cancelled
      · rfl
      · rfl
      · rintro _ ⟨⟩
      · rintro _ ⟨⟩
  | newSession _ answered => exact acted_opens answered
  | retry _ _ =>
      refine acted_leaves .idle ?_ ?_ <;> split
      · rfl
      · rfl
      · rintro _ ⟨⟩
      · rintro _ ⟨⟩
  | campaign campaigning answered => exact acted_campaigns campaigning answered
  | sessionDone leading | ctxDone leading _ =>
      exact acted_keeps (by rw [leading]; rfl) (by rw [leading]; rfl)
  | @join session lost stopping _ =>
      cases lost with
      | true => exact acted_leaves .idle rfl fun _ mine => by rw [stopping]; exact mine
      | false => exact acted_keeps (by rw [stopping]; rfl) (by rw [stopping]; rfl)
  | @resign session _ _ resigning answered =>
      have own : caller.phase.session = some session := by rw [resigning]; rfl
      exact acted_leaves (own ▸ .resign answered) rfl fun _ mine => own.trans mine
  | @closeFailed session _ _ failed answered =>
      have own : caller.phase.session = some session := by rw [failed]; rfl
      refine acted_leaves (own ▸ .close answered) ?_ ?_ <;> simp only [Instance.campaignFailed]
      · split <;> rfl
      · split <;> rintro _ ⟨⟩
  | @close session last _ _ closing answered =>
      have own : caller.phase.session = some session := by rw [closing]; rfl
      refine acted_leaves (own ▸ .close answered) ?_ ?_ <;> cases last
      · rfl
      · rfl
      · rintro _ ⟨⟩
      · rintro _ ⟨⟩

/-! ### A package that keeps its promises

The smallest one: a table of the leases and of the sessions that were elected. It is
there to show that the guarantees can be given, and fixed runs are made on it. -/

structure Table where
  granted : Nat
  alive : List Nat
  elected : List Nat

inductive Fate where
  | done
  | failed
  | expire (lease : Nat)

def table : Concurrency Table Nat Fate where
  start := ⟨0, [], []⟩
  newSession
    | etcd, .done => some (some (etcd.granted + 1), { etcd with
        granted := etcd.granted + 1
        alive := (etcd.granted + 1) :: etcd.alive })
    | etcd, .failed => some (none, etcd)
    | _, .expire _ => none
  campaign
    | etcd, session, .done =>
        if session ∈ etcd.alive ∧ ∀ other ∈ etcd.elected, other ∉ etcd.alive then
          some (true, { etcd with elected := session :: etcd.elected })
        else none
    | etcd, _, .failed => some (false, etcd)
    | _, _, .expire _ => none
  resign
    | etcd, session, .done =>
        some { etcd with elected := etcd.elected.filter fun other => other ≠ session }
    | etcd, _, .failed => some etcd
    | _, _, .expire _ => none
  close
    | etcd, session, .done =>
        some { etcd with alive := etcd.alive.filter fun other => other ≠ session }
    | etcd, _, .failed => some etcd
    | _, _, .expire _ => none
  elapse
    | etcd, .expire lease =>
        some { etcd with alive := etcd.alive.filter fun other => other ≠ lease }
    | _, _ => none
  alive etcd session := session ∈ etcd.alive

/-- What one call or an expiry does to the table. -/
structure Table.Evolves (own : Option Nat) (before after : Table) : Prop where
  granted : before.granted ≤ after.granted
  alive : ∀ session ∈ after.alive, session ∈ before.alive ∨
    before.granted < session ∧ session ≤ after.granted
  elected : ∀ session ∈ after.elected, session ∈ before.elected ∨
    own = some session ∧ session ∈ before.alive ∧ ∀ other ∈ before.elected, other ∉ before.alive
  kept : ∀ session ∈ before.elected, own ≠ some session → session ∈ after.elected

theorem table_evolves {own : Option Nat} {before after : Table}
    (moves : table.Moves own before after) : before.Evolves own after := by
  have stays : before.Evolves own before :=
    ⟨Nat.le_refl _, fun _ live => Or.inl live, fun _ won => Or.inl won, fun _ won _ => won⟩
  have ends (lease : Nat) : before.Evolves own
      { before with alive := before.alive.filter fun other => other ≠ lease } :=
    ⟨Nat.le_refl _, fun _ live => Or.inl (List.mem_filter.mp live).1, fun _ won => Or.inl won,
      fun _ won _ => won⟩
  cases moves with
  | @newSession _ _ event _ _ answered =>
      cases event <;> cases answered
      · refine ⟨Nat.le_succ _, fun session live => ?_, stays.elected, stays.kept⟩
        rcases List.mem_cons.mp live with rfl | live
        · exact Or.inr ⟨Nat.lt_succ_self _, Nat.le_refl _⟩
        · exact Or.inl live
      · exact stays
  | @campaign _ session event _ _ answered =>
      cases event with
      | done =>
          simp only [table, Option.ite_none_right_eq_some] at answered
          obtain ⟨⟨live, others⟩, same⟩ := answered
          cases same
          refine ⟨Nat.le_refl _, stays.alive, fun other won => ?_,
            fun other won _ => List.mem_cons_of_mem _ won⟩
          rcases List.mem_cons.mp won with rfl | won
          · exact Or.inr ⟨rfl, live, others⟩
          · exact Or.inl won
      | failed =>
          cases answered
          exact stays
      | expire lease => cases answered
  | @resign _ session event _ answered =>
      cases event <;> cases answered
      · refine ⟨Nat.le_refl _, stays.alive, fun _ won => Or.inl (List.mem_filter.mp won).1, ?_⟩
        intro other won foreign
        exact List.mem_filter.mpr ⟨won, decide_eq_true fun same => foreign (congrArg some same.symm)⟩
      · exact stays
  | @close _ session event _ answered =>
      cases event <;> cases answered
      · exact ends session
      · exact stays
  | @elapse _ _ event _ answered =>
      cases event <;> cases answered
      exact ends _
  | idle => exact stays

structure Table.Formed (etcd : Table) : Prop where
  numbered : ∀ session ∈ etcd.alive, session ≤ etcd.granted
  elected : ∀ session ∈ etcd.elected, session ≤ etcd.granted
  single : ∀ left ∈ etcd.elected, ∀ right ∈ etcd.elected, left ∈ etcd.alive →
    right ∈ etcd.alive → left = right

theorem evolves_formed {own : Option Nat} {before after : Table} (evolves : before.Evolves own after)
    (formed : before.Formed) : after.Formed where
  numbered session live := by
    rcases evolves.alive session live with old | fresh
    · exact Nat.le_trans (formed.numbered session old) evolves.granted
    · exact fresh.2
  elected session won := by
    rcases evolves.elected session won with old | ⟨_, live, _⟩
    · exact Nat.le_trans (formed.elected session old) evolves.granted
    · exact Nat.le_trans (formed.numbered session live) evolves.granted
  single left first right second liveLeft liveRight := by
    -- A session elected before is not the new one, so its lease is an old one.
    have earlier : ∀ session ∈ before.elected, session ∈ after.alive → session ∈ before.alive := by
      intro session won live
      rcases evolves.alive session live with old | fresh
      · exact old
      · exact absurd (formed.elected session won) (Nat.not_le_of_lt fresh.1)
    rcases evolves.elected left first with first | ⟨ownLeft, _, nobody⟩ <;>
      rcases evolves.elected right second with second | ⟨ownRight, _, nobody'⟩
    · exact formed.single left first right second (earlier left first liveLeft)
        (earlier right second liveRight)
    · exact absurd (earlier left first liveLeft) (nobody' left first)
    · exact absurd (earlier right second liveRight) (nobody right second)
    · exact Option.some.inj (ownLeft.symm.trans ownRight)

theorem reached_formed {etcd : Table} (reached : table.Reached etcd) : etcd.Formed := by
  induction reached with
  | start => exact ⟨by simp [table], by simp [table], by simp [table]⟩
  | moved _ moves ih => exact evolves_formed (table_evolves moves) ih

def tableGuarantees : table.Guarantees where
  issued etcd session := session ≤ etcd.granted
  elected etcd session := session ∈ etcd.elected
  fresh etcd event session after answered := by
    cases event <;> cases answered
    exact ⟨Nat.not_succ_le_self _, Nat.le_refl _⟩
  issued_kept _ _ _ _ moves issued := Nat.le_trans issued (table_evolves moves).granted
  wins etcd session event after answered := by
    cases event with
    | done =>
        simp only [table, Option.ite_none_right_eq_some] at answered
        obtain ⟨_, same⟩ := answered
        cases same
        exact List.mem_cons_self
    | failed => cases answered
    | expire lease => cases answered
  elected_kept _ _ _ session moves foreign won := (table_evolves moves).kept session won foreign
  exclusive _ left right reached first second liveLeft liveRight :=
    (reached_formed reached).single left first right second liveLeft liveRight

end OrionQueue.Election
