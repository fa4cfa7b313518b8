import Mathlib.Data.Fintype.Basic
import Mathlib.Logic.Function.Basic
import OrionQueue.Runs

/-!
Sessions that share a store, each with a state of its own, acting one at a time
in any order. An action whose result would clash with what another session holds
waits: it is not accepted before the other lets go. To prove something of every
interleaving it is enough to look at two sessions: what a session relies on is
kept by its own actions, and by the actions of any session compatible with it.
Nothing here mentions a particular store.
-/

namespace OrionQueue.Sessions

open Runs

variable {Session Shared Local Act : Type*}

structure World (Session Shared Local : Type*) where
  shared : Shared
  locals : Session → Local

section Interleaving

variable [DecidableEq Session] [Fintype Session]

def step (act : Shared → Local → Act → Option (Shared × Local)) (compatible : Local → Local → Bool)
    (world : World Session Shared Local) (label : Session × Act) :
    Option (World Session Shared Local) :=
  match act world.shared (world.locals label.1) label.2 with
  | none => none
  | some (shared, next) =>
      if ∀ other, other ≠ label.1 → compatible next (world.locals other) = true then
        some ⟨shared, Function.update world.locals label.1 next⟩
      else none

theorem step_some {act : Shared → Local → Act → Option (Shared × Local)}
    {compatible : Local → Local → Bool} {world after : World Session Shared Local}
    {session : Session} {action : Act}
    (stepped : step act compatible world (session, action) = some after) :
    ∃ next, act world.shared (world.locals session) action = some (after.shared, next) ∧
      (∀ other, other ≠ session → compatible next (world.locals other) = true) ∧
      after.locals = Function.update world.locals session next := by
  unfold step at stepped
  split at stepped
  case h_1 => cases stepped
  case h_2 shared next acted =>
    split at stepped
    case isTrue free =>
      cases stepped
      exact ⟨next, acted, free, rfl⟩
    case isFalse => cases stepped

end Interleaving

/-- What is to be shown of one action: `Good` is about the store alone, `Holds`
about the store and what one session has seen and holds of it. -/
structure Rule (act : Shared → Local → Act → Option (Shared × Local))
    (compatible : Local → Local → Bool) (Good : Shared → Prop) (Holds : Shared → Local → Prop) :
    Prop where
  symmetric : ∀ left right, compatible left right = true → compatible right left = true
  own : ∀ shared mine action shared' next, act shared mine action = some (shared', next) →
    Good shared → Holds shared mine → Good shared' ∧ Holds shared' next
  stable : ∀ shared mine action shared' next, act shared mine action = some (shared', next) →
    Holds shared mine → ∀ theirs, compatible theirs mine = true → Holds shared theirs →
    Holds shared' theirs

structure Sound (compatible : Local → Local → Bool) (Good : Shared → Prop)
    (Holds : Shared → Local → Prop) (world : World Session Shared Local) : Prop where
  good : Good world.shared
  holds : ∀ session, Holds world.shared (world.locals session)
  apart : ∀ session other, session ≠ other →
    compatible (world.locals session) (world.locals other) = true

variable {act : Shared → Local → Act → Option (Shared × Local)} {compatible : Local → Local → Bool}
  {Good : Shared → Prop} {Holds : Shared → Local → Prop}
  [DecidableEq Session] [Fintype Session]

theorem step_sound (rule : Rule act compatible Good Holds) {world after : World Session Shared Local}
    {label : Session × Act} (sound : Sound compatible Good Holds world)
    (stepped : step act compatible world label = some after) :
    Sound compatible Good Holds after := by
  obtain ⟨session, action⟩ := label
  obtain ⟨next, acted, free, locals⟩ := step_some stepped
  have mine := rule.own _ _ _ _ _ acted sound.good (sound.holds session)
  have own : after.locals session = next := by rw [locals, Function.update_self]
  have rest : ∀ other, other ≠ session → after.locals other = world.locals other := by
    intro other apart
    rw [locals, Function.update_of_ne apart]
  constructor
  case good => exact mine.1
  case holds =>
    intro other
    by_cases same : other = session
    · rw [same, own]
      exact mine.2
    · rw [rest other same]
      exact rule.stable _ _ _ _ _ acted (sound.holds session) _ (sound.apart other session same)
        (sound.holds other)
  case apart =>
    intro left right apart
    by_cases isLeft : left = session
    · have other : right ≠ session := fun same => apart (isLeft.trans same.symm)
      rw [isLeft, own, rest right other]
      exact free right other
    · by_cases isRight : right = session
      · rw [isRight, own, rest left isLeft]
        exact rule.symmetric _ _ (free left isLeft)
      · rw [rest left isLeft, rest right isRight]
        exact sound.apart left right apart

theorem run_sound (rule : Rule act compatible Good Holds) {world final : World Session Shared Local}
    {labels : List (Session × Act)} (ran : run (step act compatible) world labels = some final)
    (sound : Sound compatible Good Holds world) : Sound compatible Good Holds final :=
  run_invariant (fun _ _ _ holds stepped => step_sound rule holds stepped) ran sound

end OrionQueue.Sessions
