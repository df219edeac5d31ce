import Challenger1P.Machine.Host
import Challenger1P.Proofs.Bus.Recording

/-!
# Watching a machine

What can be seen of a machine from outside while it is used: what its processor does to the bus
(`tickAccesses`, `runAccesses`) and what its host is shown (`Watched`). A `Session` is a machine and
its host with all of this written down, over any sequence of calls.

Watching changes nothing: a run with a watched host is the run with the host (`run_watched`).
-/

namespace Challenger1P

/-- A host that also keeps every screen it was shown, oldest first. -/
structure Watched (σ : Type) where
  host : σ
  shown : List Screen := []

instance {σ : Type} [Host σ] : Host (Watched σ) where
  poll w keyboard :=
    match Host.poll w.host keyboard with
    | (alive, keyboard, host) => (alive, keyboard, { host, shown := w.shown })
  display w screen := { host := Host.display w.host screen, shown := w.shown ++ [screen] }

namespace Machine

variable {σ : Type} [Host σ]

/-- Execute one instruction. -/
def step (m : Machine) : Machine := { m with cpu := m.cpu.step }

/-- Run for one tick and tell the host if there is a new screen. -/
def tickFor (m : Machine) (host : σ) : Machine × σ :=
  match m.tick with
  | (.running _ (some screen), m) => (m, Host.display host screen)
  | (_, m) => (m, host)

/-- The machine as a tick begins: nothing counts as written yet. -/
def cleared (m : Machine) : Machine := m.mapMemory MemoryMap.clearScreenWritten

/-- What a tick does to the bus. -/
def tickAccesses (m : Machine) : List Access := m.cleared.cpu.accesses m.spend.1

/-- What a run of at most `ticks` ticks does to the bus. -/
def runAccesses : (ticks : Nat) → Machine → σ → List Access
  | 0, _, _ => []
  | ticks + 1, m, host =>
    match m.poll host with
    | (false, _, _) => []
    | (true, m, host) =>
      m.tickAccesses ++
        match m.tick.1 with
        | .running _ _ => runAccesses ticks (m.tickFor host).1 (m.tickFor host).2
        | _ => []

/-- A run is made of polls and ticks. -/
theorem run_succ (ticks : Nat) (m : Machine) (host : σ) :
    m.run (ticks + 1) host =
      match m.poll host with
      | (false, m, host) => (.closed, m, host)
      | (true, m, host) =>
        match m.tick.1 with
        | .halted => (.halted, m.tickFor host)
        | .broken => (.broken, m.tickFor host)
        | .running _ _ => run ticks (m.tickFor host).1 (m.tickFor host).2 := by
  rw [run]
  rcases m.poll host with ⟨_ | _, m, host⟩
  · rfl
  · rcases htick : m.tick with ⟨⟨cycles, _ | screen⟩ | _ | _, after⟩ <;> simp only [tickFor, htick]

theorem spend_eq (m : Machine) :
    m.spend = ((m.cleared.cpu.spend m.budget.toNat).1,
      { m with cpu := (m.cleared.cpu.spend m.budget.toNat).2 }) := by
  obtain ⟨⟨registers, cycles, bus, stop⟩, clock, budget, hbudget⟩ := m
  rfl

theorem tick_eq (m : Machine) :
    m.tick = (m.spend.2.outcomeSince m.cpu.cycles.toNat, m.spend.2) := rfl

theorem tickFor_fst (m : Machine) (host : σ) : (m.tickFor host).1 = m.tick.2 := by
  unfold tickFor
  split
  · rename_i h
    rw [h]
  · rename_i h
    rw [h]

/-- A run that was cut short goes on from where it was cut. -/
theorem run_add {ticks : Nat} {m before : Machine} {host left : σ}
    (h : m.run ticks host = (.unfinished, before, left)) (more : Nat) :
    m.run (ticks + more) host = before.run more left := by
  induction ticks generalizing m host with
  | zero =>
    cases h
    rw [Nat.zero_add]
  | succ ticks ih =>
    rw [Nat.succ_add]
    rcases hp : m.poll host with ⟨_ | _, m', host'⟩ <;> simp only [run_succ, hp] at h ⊢
    · cases h
    · cases htick : m'.tick.1 with
      | running cycles screen =>
        simp only [htick] at h ⊢
        exact ih h
      | halted => simp [htick] at h
      | broken => simp [htick] at h

/-- A run that has come to its end is not changed by more time. -/
theorem run_of_ended {ticks : Nat} {m : Machine} {host : σ}
    (h : (m.run ticks host).1 ≠ .unfinished) (more : Nat) :
    m.run (ticks + more) host = m.run ticks host := by
  induction ticks generalizing m host with
  | zero => exact absurd rfl h
  | succ ticks ih =>
    rw [Nat.succ_add]
    rcases hp : m.poll host with ⟨_ | _, m', host'⟩ <;> simp only [run_succ, hp] at h ⊢
    cases htick : m'.tick.1 with
    | running cycles screen =>
      simp only [htick] at h ⊢
      exact ih h
    | halted => rfl
    | broken => rfl

/-! ## Watching changes nothing -/

theorem poll_watched (m : Machine) (w : Watched σ) :
    m.poll w.host = ((m.poll w).1, (m.poll w).2.1, (m.poll w).2.2.host) ∧
      (m.poll w).2.2.shown = w.shown := by
  exact ⟨rfl, rfl⟩

theorem tickFor_watched (m : Machine) (w : Watched σ) :
    m.tickFor w.host = ((m.tickFor w).1, (m.tickFor w).2.host) := by
  unfold tickFor
  split <;> rfl

theorem run_watched (ticks : Nat) (m : Machine) (w : Watched σ) :
    m.run ticks w.host = ((m.run ticks w).1, (m.run ticks w).2.1, (m.run ticks w).2.2.host) := by
  induction ticks generalizing m w with
  | zero => rfl
  | succ ticks ih =>
    rw [run_succ, run_succ, (poll_watched m w).1]
    rcases m.poll w with ⟨_ | _, m, w⟩
    · rfl
    · simp only [tickFor_watched]
      cases m.tick.1 with
      | running cycles screen => exact ih _ _
      | halted => rfl
      | broken => rfl

end Machine

/-! ## Sessions -/

/-- A way to make a machine go on. -/
inductive Call where
  | step
  | tick
  /-- Run for at most so many ticks. -/
  | run (ticks : Nat)
  deriving DecidableEq, Repr

/-- A machine in use, with all that was seen of it. -/
structure Session (σ : Type) where
  machine : Machine
  host : Watched σ
  /-- What the processor did to the bus. -/
  accesses : List Access := []

namespace Session

variable {σ : Type} [Host σ]

/-- Make one call. -/
def call (s : Session σ) : Call → Session σ
  | .step =>
    { machine := s.machine.step, host := s.host
      accesses := s.accesses ++ s.machine.cpu.accesses 1 }
  | .tick =>
    { machine := (s.machine.tickFor s.host).1, host := (s.machine.tickFor s.host).2
      accesses := s.accesses ++ s.machine.tickAccesses }
  | .run ticks =>
    { machine := (s.machine.run ticks s.host).2.1, host := (s.machine.run ticks s.host).2.2
      accesses := s.accesses ++ s.machine.runAccesses ticks s.host }

/-- Make one call after the other. -/
def calls (s : Session σ) (list : List Call) : Session σ := list.foldl call s

end Session

end Challenger1P
