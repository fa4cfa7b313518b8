import Mathlib.Data.Set.Subsingleton
import OrionQueue.Election

/-!
What RunElection makes of the guarantees of the package concurrency, in every
reachable state: no two instances share a session, an instance that takes itself for
elected has an elected session, and of these at most one has its lease alive. Two
executions of onLeader can overlap only while one of them has outlived its lease.
-/

namespace OrionQueue.Leadership

open Runs Election

variable {Sched Etcd Session Event : Type} {package : Concurrency Etcd Session Event}

structure Sound (guarantees : package.Guarantees) (state : Election.State Sched Etcd Session) :
    Prop where
  reached : package.Reached state.etcd
  issued : ∀ scheduler session, (state.instances scheduler).phase.session = some session →
    guarantees.issued state.etcd session
  apart : ∀ left right session, (state.instances left).phase.session = some session →
    (state.instances right).phase.session = some session → left = right
  elected : ∀ scheduler session, (state.instances scheduler).phase.won = some session →
    guarantees.elected state.etcd session

section Sound
variable {guarantees : package.Guarantees} {state : Election.State Sched Etcd Session}

theorem start_sound : Sound guarantees (State.start package : Election.State Sched Etcd Session) where
  reached := .start
  issued _ _ mine := by cases mine
  apart _ _ _ mine := by cases mine
  elected _ _ won := by cases won

theorem elapse_sound (sound : Sound guarantees state) {event : Event} {etcd : Etcd}
    (elapsed : package.elapse state.etcd event = some etcd) :
    Sound guarantees { state with etcd := etcd } where
  reached := sound.reached.moved (.elapse elapsed : package.Moves none _ _)
  issued scheduler session mine :=
    guarantees.issued_kept none _ _ _ (.elapse elapsed) (sound.issued scheduler session mine)
  apart := sound.apart
  elected scheduler session won :=
    guarantees.elected_kept none _ _ _ (.elapse elapsed) (by simp) (sound.elected scheduler session won)

/-- The session of another instance is an old one, and a fresh session is none of theirs. -/
theorem foreign_session (sound : Sound guarantees state) {scheduler other : Sched}
    {next : Instance Session} {etcd : Etcd}
    (acted : Acted package state.etcd (state.instances scheduler) next etcd)
    (own : other ≠ scheduler) {session : Session}
    (theirs : (state.instances other).phase.session = some session) :
    next.phase.session ≠ some session := by
  intro mine
  rcases acted.session session mine with old | ⟨event, answered⟩
  · exact own (sound.apart other scheduler session theirs old)
  · exact (guarantees.fresh _ _ _ _ answered).1 (sound.issued other session theirs)

theorem act_sound [DecidableEq Sched] (sound : Sound guarantees state) {scheduler : Sched}
    {next : Instance Session} {etcd : Etcd}
    (acted : Acted package state.etcd (state.instances scheduler) next etcd) :
    Sound guarantees ⟨etcd, Function.update state.instances scheduler next⟩ where
  reached := sound.reached.moved acted.moves
  issued := by
    refine (Function.forall_update_iff _ (p := fun _ (caller : Instance Session) => ∀ session,
      caller.phase.session = some session → guarantees.issued etcd session)).mpr ⟨?_, ?_⟩
    · intro session mine
      rcases acted.session session mine with old | ⟨event, answered⟩
      · exact guarantees.issued_kept _ _ _ _ acted.moves (sound.issued scheduler session old)
      · exact (guarantees.fresh _ _ _ _ answered).2
    · exact fun other _ session theirs =>
        guarantees.issued_kept _ _ _ _ acted.moves (sound.issued other session theirs)
  apart left right session := by
    by_cases first : left = scheduler <;> by_cases second : right = scheduler
    · intro _ _
      rw [first, second]
    · subst first
      simp only [Function.update_self, Function.update_of_ne second]
      exact fun mine theirs => absurd mine (foreign_session sound acted second theirs)
    · subst second
      simp only [Function.update_self, Function.update_of_ne first]
      exact fun theirs mine => absurd mine (foreign_session sound acted first theirs)
    · simp only [Function.update_of_ne first, Function.update_of_ne second]
      exact sound.apart left right session
  elected := by
    refine (Function.forall_update_iff _ (p := fun _ (caller : Instance Session) => ∀ session,
      caller.phase.won = some session → guarantees.elected etcd session)).mpr ⟨?_, ?_⟩
    · intro session won
      rcases acted.won session won with ⟨old, rfl⟩ | ⟨event, answered⟩
      · exact sound.elected scheduler session old
      · exact guarantees.wins _ _ _ _ answered
    · intro other own session won
      -- A call with another session does not take the election away.
      refine guarantees.elected_kept _ _ _ _ acted.moves ?_ (sound.elected other session won)
      exact fun mine => own (sound.apart other scheduler session (won_session won) mine)

theorem step_sound [DecidableEq Sched] (state : Election.State Sched Etcd Session)
    (label : Election.Label Sched Event) (after : Election.State Sched Etcd Session)
    (sound : Sound guarantees state) (stepped : step package state label = some after) :
    Sound guarantees after := by
  rcases step_cases stepped with
    ⟨scheduler, action, next, etcd, _, acted, rfl⟩ | ⟨event, etcd, _, elapsed, rfl⟩
  · exact act_sound sound (act_acted acted)
  · exact elapse_sound sound elapsed

end Sound

/-- The instance was elected, and the lease it was elected with is alive. -/
def Holds (package : Concurrency Etcd Session Event) (state : Election.State Sched Etcd Session)
    (scheduler : Sched) : Prop :=
  ∃ session, (state.instances scheduler).phase.won = some session ∧
    package.alive state.etcd session

theorem sound_exclusive {guarantees : package.Guarantees}
    {state : Election.State Sched Etcd Session} (sound : Sound guarantees state) :
    {scheduler | Holds package state scheduler}.Subsingleton := by
  rintro left ⟨mine, wonLeft, aliveLeft⟩ right ⟨theirs, wonRight, aliveRight⟩
  obtain rfl : mine = theirs := guarantees.exclusive state.etcd mine theirs sound.reached
    (sound.elected left mine wonLeft) (sound.elected right theirs wonRight) aliveLeft aliveRight
  exact sound.apart left right mine (won_session wonLeft) (won_session wonRight)

/-! ### An instance and its onLeader -/

/-- What may be announced after what. -/
def follows : Status → Status → Bool
  | .campaigning, .campaignFailed | .campaigning, .leader | .leader, .sessionLost => true
  | .sessionFailed, .sessionFailed | .campaignFailed, .sessionFailed
  | .sessionLost, .sessionFailed => true
  | .sessionFailed, .campaigning | .campaignFailed, .campaigning
  | .sessionLost, .campaigning => true
  | _, _ => false

/-- The last announcement before each point of RunElection. -/
def announced : Phase Session → Option Status → Bool
  | .top, last | .opening, last => last ≠ some .campaigning && last ≠ some .leader
  | .retrying, last => last = some .sessionFailed
  | .campaigning _, last | .failed _, last => last = some .campaigning
  | .leading _, last | .resigning _, last => last = some .leader
  | .stopping _ lost, last => last = if lost then some .sessionLost else some .leader
  | .closing _ final, last => last = if final then some .leader else some .sessionLost
  | .returned, _ => true

/-- onLeader is called and waited for in these phases only. -/
def attended : Phase Session → Bool
  | .leading _ | .stopping _ _ => true
  | _ => false

structure Coherent (caller : Instance Session) : Prop where
  attended : caller.onLeader ≠ .absent ↔ attended caller.phase = true
  flag : caller.isLeader = true ↔ caller.onLeader = .scheduling ∨ caller.onLeader = .leaving
  last : announced caller.phase caller.statuses.head? = true
  ordered : caller.statuses.IsChain fun newer older => follows older newer = true

theorem start_coherent : Coherent (.start : Instance Session) := by
  constructor <;> simp [Instance.start, attended, announced]

/-- A phase is entered without an announcement. -/
theorem enters_coherent {caller : Instance Session} {phase : Phase Session} (coherent : Coherent caller)
    (before : attended caller.phase = attended phase)
    (last : announced phase caller.statuses.head? = true) : Coherent (caller.enter phase) :=
  ⟨before ▸ coherent.attended, coherent.flag, last, coherent.ordered⟩

theorem notify_ordered {caller : Instance Session} {status : Status} (coherent : Coherent caller)
    (next : ∀ older ∈ caller.statuses.head?, follows older status = true) :
    (caller.notify status).statuses.IsChain fun newer older => follows older newer = true := by
  have ordered := coherent.ordered
  simp only [Instance.notify]
  cases earlier : caller.statuses with
  | nil => exact .singleton status
  | cons older rest =>
      rw [earlier] at ordered next
      exact .cons_cons (next older rfl) ordered

theorem notifies_coherent {caller : Instance Session} {phase : Phase Session} {status : Status}
    (coherent : Coherent caller) (before : attended caller.phase = attended phase)
    (next : ∀ older ∈ caller.statuses.head?, follows older status = true)
    (last : announced phase (some status) = true) :
    Coherent ((caller.notify status).enter phase) :=
  ⟨before ▸ coherent.attended, coherent.flag, last, notify_ordered coherent next⟩

/-- Where neither a campaign nor a leadership is under way, both may be announced. -/
theorem outside_follows {last : Option Status}
    (outside : (last ≠ some .campaigning && last ≠ some .leader) = true) (older : Status)
    (newest : older ∈ last) :
    follows older .campaigning = true ∧ follows older .sessionFailed = true := by
  obtain rfl := Option.mem_def.mp newest
  cases older <;> simp_all [follows]

theorem only_follows {last : Option Status} {expected status : Status}
    (announced : decide (last = some expected) = true) (follow : follows expected status = true)
    (older : Status) (newest : older ∈ last) : follows older status = true := by
  obtain rfl := Option.mem_def.mp newest
  obtain rfl := Option.some.inj (of_decide_eq_true announced)
  exact follow

/-- NewSession is called where neither a campaign nor a leadership is under way. -/
theorem opened_coherent {caller : Instance Session} (coherent : Coherent caller)
    (opening : caller.phase = .opening) (session : Option Session) :
    Coherent (caller.opened session) := by
  have last := coherent.last
  rw [opening] at last
  cases session with
  | some session =>
      exact notifies_coherent coherent (by rw [opening]; rfl)
        (fun older newest => (outside_follows last older newest).1) rfl
  | none =>
      simp only [Instance.opened]
      split
      · exact enters_coherent coherent (by rw [opening]; rfl) rfl
      · exact notifies_coherent coherent (by rw [opening]; rfl)
          (fun older newest => (outside_follows last older newest).2) rfl

theorem campaigned_coherent {caller : Instance Session} {session : Session}
    (coherent : Coherent caller) (campaigning : caller.phase = .campaigning session) (won : Bool) :
    Coherent (caller.campaigned session won) := by
  have last := coherent.last
  rw [campaigning] at last
  cases won with
  | true =>
      -- onLeader is called here and nowhere else.
      have idle : caller.onLeader = .absent := by
        by_contra busy
        simpa [campaigning, attended] using coherent.attended.mp busy
      refine ⟨by simp [Instance.campaigned, Instance.enter, attended], ?_, rfl,
        notify_ordered coherent (only_follows last rfl)⟩
      simpa [idle, Instance.campaigned, Instance.enter, Instance.notify] using coherent.flag
  | false => exact enters_coherent coherent (by rw [campaigning]; rfl) last

theorem act_coherent {etcd after : Etcd} {caller next : Instance Session} {action : Action Event}
    (coherent : Coherent caller) (acted : act package etcd caller action = some (next, after)) :
    Coherent next := by
  have last := coherent.last
  cases act_effect acted with
  | shutdown => exact ⟨coherent.attended, coherent.flag, last, coherent.ordered⟩
  | check top =>
      rw [top] at last
      cases caller.cancelled
      · exact enters_coherent coherent (by rw [top]; rfl) last
      · exact enters_coherent coherent (by rw [top]; rfl) rfl
  | newSession opening _ => exact opened_coherent coherent opening _
  | @retry elapsed retrying _ =>
      rw [retrying] at last
      have failed := of_decide_eq_true last
      cases elapsed
      · exact enters_coherent coherent (by rw [retrying]; rfl) rfl
      · exact enters_coherent coherent (by rw [retrying]; rfl) (by simp [announced, failed])
  | campaign campaigning _ => exact campaigned_coherent coherent campaigning _
  | sessionDone leading =>
      rw [leading] at last
      exact notifies_coherent coherent (by rw [leading]; rfl) (only_follows last rfl) rfl
  | ctxDone leading _ =>
      rw [leading] at last
      exact enters_coherent coherent (by rw [leading]; rfl) last
  | @join session lost stopping finished =>
      rw [stopping] at last
      have flag : caller.isLeader ≠ true := by simp [coherent.flag, finished]
      refine ⟨?_, by simpa [Instance.enter] using flag, ?_, coherent.ordered⟩
      · cases lost <;> simp [Instance.enter, attended]
      · cases lost <;> exact last
  | resign resigning _ =>
      rw [resigning] at last
      exact enters_coherent coherent (by rw [resigning]; rfl) last
  | closeFailed failed _ =>
      rw [failed] at last
      unfold Instance.campaignFailed
      split
      · exact enters_coherent coherent (by rw [failed]; rfl) rfl
      · exact notifies_coherent coherent (by rw [failed]; rfl) (only_follows last rfl) rfl
  | @close session final _ _ closing _ =>
      rw [closing] at last
      cases final with
      | true => exact enters_coherent coherent (by rw [closing]; rfl) rfl
      | false =>
          have lost := of_decide_eq_true last
          exact enters_coherent coherent (by rw [closing]; rfl) (by simp [announced, lost])
  | begin begun =>
      have attending := coherent.attended.mp (by simp [begun])
      exact ⟨by simp [attending], by simp, last, coherent.ordered⟩
  | leave scheduling _ =>
      have attending := coherent.attended.mp (by simp [scheduling])
      have flag := coherent.flag.mpr (Or.inl scheduling)
      exact ⟨by simp [attending], by simp [flag], last, coherent.ordered⟩
  | finish leaving =>
      have attending := coherent.attended.mp (by simp [leaving])
      exact ⟨by simp [attending], by simp, last, coherent.ordered⟩

theorem step_coherent [DecidableEq Sched] (state : Election.State Sched Etcd Session)
    (label : Election.Label Sched Event) (after : Election.State Sched Etcd Session)
    (coherent : ∀ scheduler, Coherent (state.instances scheduler))
    (stepped : step package state label = some after) :
    ∀ scheduler, Coherent (after.instances scheduler) := by
  rcases step_cases stepped with
    ⟨actor, action, next, etcd, _, acted, rfl⟩ | ⟨event, etcd, _, _, rfl⟩
  · exact (Function.forall_update_iff _ (p := fun _ => Coherent)).mpr
      ⟨act_coherent (coherent actor) acted, fun scheduler _ => coherent scheduler⟩
  · exact coherent

theorem executing_attended {caller : Instance Session} (coherent : Coherent caller)
    (executing : caller.executing = true) : attended caller.phase = true := by
  refine coherent.attended.mp fun absent => ?_
  simp [Instance.executing, absent] at executing

theorem attended_won {phase : Phase Session} (attending : attended phase = true) :
    ∃ session, phase.won = some session := by
  cases phase <;> simp_all [attended, Phase.won]

/-! ### Leases that outlast their use -/

/-- The lease of every instance whose onLeader executes is alive. -/
def Backed (package : Concurrency Etcd Session Event) (state : Election.State Sched Etcd Session) :
    Prop :=
  ∀ scheduler session, (state.instances scheduler).executing = true →
    (state.instances scheduler).phase.won = some session → package.alive state.etcd session

/-- What every run keeps. -/
structure Secure (guarantees : package.Guarantees) (state : Election.State Sched Etcd Session) :
    Prop extends Sound guarantees state where
  coherent : ∀ scheduler, Coherent (state.instances scheduler)

section Secure
variable {guarantees : package.Guarantees} {state : Election.State Sched Etcd Session}

theorem executing_holds (secure : Secure guarantees state) (backed : Backed package state)
    {scheduler : Sched} (executing : (state.instances scheduler).executing = true) :
    Holds package state scheduler := by
  obtain ⟨session, won⟩ := attended_won (executing_attended (secure.coherent scheduler) executing)
  exact ⟨session, won, backed scheduler session executing won⟩

/-- One onLeader at a time. -/
theorem secure_exclusive (secure : Secure guarantees state) (backed : Backed package state) :
    {scheduler | (state.instances scheduler).executing = true}.Subsingleton :=
  (sound_exclusive secure.toSound).anti fun _ executing => executing_holds secure backed executing

end Secure

/-! ### Every run -/

section Results
variable [DecidableEq Sched]

theorem live_leader_unique (package : Concurrency Etcd Session Event)
    (guarantees : package.Guarantees) (labels : List (Election.Label Sched Event))
    (state : Election.State Sched Etcd Session)
    (ran : run (step package) (State.start package) labels = some state) :
    {scheduler | Holds package state scheduler}.Subsingleton := by
  have sound : Sound guarantees state := run_invariant step_sound ran start_sound
  exact sound_exclusive sound

/-- The lease of the first leader runs out while its onLeader executes, and the second
instance is elected before the first one notices. -/
def unnoticedLabels : List (Election.Label Bool Fate) :=
  [.act false .check, .act false (.newSession .done), .act true .check,
    .act true (.newSession .done), .act false (.campaign .done), .act false .begin,
    .elapse (.expire 1), .act true (.campaign .done), .act true .begin]

/-- Both say that they are the leader, and one of them still is. -/
theorem unnoticedLabels_unique :
    ∃ state, run (step table) (State.start table) unnoticedLabels = some state ∧
      (state.instances false).isLeader = true ∧ (state.instances true).isLeader = true ∧
      Holds table state true ∧ {scheduler | Holds table state scheduler}.Subsingleton :=
  ⟨_, rfl, rfl, rfl, ⟨2, rfl, List.mem_singleton_self 2⟩,
    live_leader_unique table tableGuarantees unnoticedLabels _ rfl⟩

theorem leadership_announced (package : Concurrency Etcd Session Event)
    (labels : List (Election.Label Sched Event)) (state : Election.State Sched Etcd Session)
    (ran : run (step package) (State.start package) labels = some state) (scheduler : Sched) :
    ((state.instances scheduler).isLeader = true →
      (state.instances scheduler).executing = true) ∧
    ((state.instances scheduler).executing = true →
      (∃ session, (state.instances scheduler).phase = .leading session ∧
        (state.instances scheduler).statuses.head? = some .leader) ∨
      ∃ session lost, (state.instances scheduler).phase = .stopping session lost ∧
        (state.instances scheduler).statuses.head? =
          if lost then some .sessionLost else some .leader) ∧
    (state.instances scheduler).statuses.IsChain fun newer older => follows older newer = true := by
  have every : ∀ scheduler, Coherent (state.instances scheduler) :=
    run_invariant step_coherent ran fun _ => start_coherent
  have coherent := every scheduler
  refine ⟨fun flag => ?_, fun executing => ?_, coherent.ordered⟩
  · rcases coherent.flag.mp flag with scheduling | leaving
    · simp [Instance.executing, scheduling]
    · simp [Instance.executing, leaving]
  · have attending := executing_attended coherent executing
    have last := coherent.last
    cases phase : (state.instances scheduler).phase with
    | leading session =>
        rw [phase] at last
        exact Or.inl ⟨session, rfl, of_decide_eq_true last⟩
    | stopping session lost =>
        rw [phase] at last
        exact Or.inr ⟨session, lost, rfl, of_decide_eq_true last⟩
    | _ => simp [phase, attended] at attending

/-- A leader is told to shut down and its scheduling loop has not returned yet. -/
def drainingLabels : List (Election.Label Bool Fate) :=
  [.act false .check, .act false (.newSession .failed), .act false (.retry true),
    .act false .check, .act false (.newSession .done), .act false (.campaign .done),
    .act false .begin, .act false .shutdown, .act false .ctxDone]

theorem drainingLabels_announced :
    ∃ state, run (step table) (State.start table) drainingLabels = some state ∧
      (state.instances false).executing = true ∧
      (state.instances false).statuses = [.leader, .campaigning, .sessionFailed] ∧
      ((state.instances false).statuses.IsChain fun newer older => follows older newer = true) :=
  ⟨_, rfl, rfl, rfl, (leadership_announced table drainingLabels _ rfl false).2.2⟩

end Results

end OrionQueue.Leadership
