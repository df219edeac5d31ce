import Mathlib.Order.Lattice.Nat
import Challenger1P.Proofs.Machine.Halting
import Challenger1P.Proofs.Mos6502.Lockstep

/-!
# A run is polls and plain steps

A machine does nothing to its processor but step it, and input reaches the keyboard between ticks
only. `Alternation` says what that leaves: at every poll the keyboard events of the poll, then as
many plain steps as the tick after it takes, which is the least number, one or more, after which the
processor has stopped or has spent the budget (`Cpu.tickEnds`). `Alternation.Ends` says where this
comes to an end.

* `isLeast_tickLength`: a tick makes the least number of steps that may end it.
* `Cpu.Alike`: what a machine clears at the start of a tick, the note that the screen was written,
  has no influence on any step.
* `ends_run`: a run ends as the polls and plain steps do, with the same processor.
* `exists_alike_steps`: without input a run is plain steps and nothing else.
-/

namespace Challenger1P

/-! ## How many steps a tick takes -/

namespace Cpu

variable {β : Type} [Bus β]

/-- The numbers of steps, one or more, after which the processor has stopped or its counter has
reached `goal`. -/
def stepsTo (goal : Nat) (c : Cpu β) : Set Nat :=
  {n | 1 ≤ n ∧ ((c.steps n).stop ≠ none ∨ goal ≤ (c.steps n).cycles.toNat)}

/-- The numbers of steps after which a tick that begins here may end: the processor has stopped, or
has spent the budget since. -/
def tickEnds (budget : Nat) (c : Cpu β) : Set Nat := c.stepsTo (c.cycles.toNat + budget)

theorem succ_mem_stepsTo {goal n : Nat} {c : Cpu β} (h : n + 1 ∈ c.stepsTo goal)
    (hrunning : c.step.stop = none) (hgoal : c.step.cycles.toNat < goal) :
    n ∈ c.step.stepsTo goal := by
  obtain ⟨-, hend⟩ := h
  rw [steps] at hend
  refine ⟨?_, hend⟩
  -- with no further step the processor would have to be where it is not
  rcases Nat.eq_zero_or_pos n with rfl | hpos
  · rcases hend with hstop | hreached
    · exact absurd hrunning hstop
    · exact absurd hreached (Nat.not_le.2 hgoal)
  · exact hpos

theorem isLeast_spendUntil (goal made : Nat) (c : Cpu β) :
    ∃ count, spendUntil goal made c = (made + count, c.steps count) ∧
      IsLeast (c.stepsTo goal) count := by
  fun_induction spendUntil goal made c with
  | case1 made c next h ih =>
    obtain ⟨count, hcount, ⟨hpos, hend⟩, hleast⟩ := ih
    refine ⟨count + 1, by rw [hcount, steps, Nat.add_assoc, Nat.add_comm 1], ⟨by omega, hend⟩, ?_⟩
    intro n hn
    obtain ⟨n, rfl⟩ : ∃ k, n = k + 1 := ⟨n - 1, by have := hn.1; omega⟩
    exact Nat.succ_le_succ (hleast (succ_mem_stepsTo hn h.1 h.2))
  | case2 made c next h =>
    refine ⟨1, rfl, ⟨Nat.le_refl 1, ?_⟩, fun n hn => hn.1⟩
    by_cases hstop : next.stop = none
    · exact Or.inr (Nat.not_lt.1 fun hlt => h ⟨hstop, hlt⟩)
    · exact Or.inl hstop

/-- The steps of a tick that begins here. -/
noncomputable def tickLength (budget : Nat) (c : Cpu β) : Nat := sInf (c.tickEnds budget)

theorem isLeast_tickLength (budget : Nat) (c : Cpu β) :
    IsLeast (c.tickEnds budget) (c.tickLength budget) := by
  obtain ⟨count, -, hleast⟩ := isLeast_spendUntil (c.cycles.toNat + budget) 0 c
  rw [tickLength, show sInf (c.tickEnds budget) = count from hleast.csInf_eq]
  exact hleast

/-- Spending a budget is plain steps, no more of them than it takes. -/
theorem spend_eq_tickLength (budget : Nat) (c : Cpu β) :
    c.spend budget = (c.tickLength budget, c.steps (c.tickLength budget)) := by
  obtain ⟨count, hcount, hleast⟩ := isLeast_spendUntil (c.cycles.toNat + budget) 0 c
  rw [tickLength, show sInf (c.tickEnds budget) = count from hleast.csInf_eq, spend, hcount,
    Nat.zero_add]

end Cpu

/-! ## The note about the screen -/

/-- The two memories differ at most in the note that the screen was written. -/
structure MemoryMap.Alike {δ : Type} (m m' : MemoryMap δ) : Prop where
  store_eq : m'.store = m.store
  device_eq : m'.device = m.device

/-- The two processors differ at most in the note that the screen was written. -/
structure Cpu.Alike {δ : Type} (c c' : Cpu (MemoryMap δ)) : Prop where
  registers_eq : c'.registers = c.registers
  cycles_eq : c'.cycles = c.cycles
  stop_eq : c'.stop = c.stop
  bus : c.bus.Alike c'.bus

namespace MemoryMap.Alike

variable {δ α : Type} [Device δ] {m m' : MemoryMap δ}

theorem read (h : m.Alike m') (address : UInt16) :
    (Bus.read m' address).1 = (Bus.read m address).1 ∧
      (Bus.read m address).2.Alike (Bus.read m' address).2 := by
  obtain ⟨store, written, device⟩ := m
  obtain ⟨store', written', device'⟩ := m'
  obtain ⟨rfl, rfl⟩ : store' = store ∧ device' = device := ⟨h.store_eq, h.device_eq⟩
  show (MemoryMap.read _ address).1 = (MemoryMap.read _ address).1 ∧
    MemoryMap.Alike (MemoryMap.read _ address).2 (MemoryMap.read _ address).2
  unfold MemoryMap.read
  cases region address <;> exact ⟨rfl, rfl, rfl⟩

theorem write (h : m.Alike m') (address : UInt16) (value : UInt8) :
    (Bus.write m address value).Alike (Bus.write m' address value) := by
  obtain ⟨store, written, device⟩ := m
  obtain ⟨store', written', device'⟩ := m'
  obtain ⟨rfl, rfl⟩ : store' = store ∧ device' = device := ⟨h.store_eq, h.device_eq⟩
  show (MemoryMap.write _ address value).Alike (MemoryMap.write _ address value)
  unfold MemoryMap.write
  cases region address <;> exact ⟨rfl, rfl⟩

theorem run (h : m.Alike m') (t : Transaction α) :
    (t.run m').1 = (t.run m).1 ∧ (t.run m).2.Alike (t.run m').2 := by
  induction t generalizing m m' with
  | done result => exact ⟨rfl, h⟩
  | read address next ih =>
    obtain ⟨hvalue, hafter⟩ := h.read address
    simp only [Transaction.run, hvalue]
    exact ih _ hafter
  | write address value next ih => exact ih (h.write address value)

end MemoryMap.Alike

namespace Cpu

variable {δ : Type} {c c' c'' : Cpu (MemoryMap δ)}

theorem Alike.refl (c : Cpu (MemoryMap δ)) : c.Alike c := ⟨rfl, rfl, rfl, rfl, rfl⟩

theorem Alike.symm (h : c.Alike c') : c'.Alike c where
  registers_eq := h.registers_eq.symm
  cycles_eq := h.cycles_eq.symm
  stop_eq := h.stop_eq.symm
  bus := ⟨h.bus.store_eq.symm, h.bus.device_eq.symm⟩

theorem Alike.trans (h : c.Alike c') (h' : c'.Alike c'') : c.Alike c'' where
  registers_eq := h'.registers_eq.trans h.registers_eq
  cycles_eq := h'.cycles_eq.trans h.cycles_eq
  stop_eq := h'.stop_eq.trans h.stop_eq
  bus := ⟨h'.bus.store_eq.trans h.bus.store_eq, h'.bus.device_eq.trans h.bus.device_eq⟩

theorem Alike.inStep (h : c.Alike c') : c.InStep c' := ⟨h.registers_eq, h.cycles_eq, h.stop_eq⟩

theorem InStep.alike (h : c.InStep c') (hbus : c.bus.Alike c'.bus) : c.Alike c' :=
  ⟨h.registers_eq, h.cycles_eq, h.stop_eq, hbus⟩

variable [Device δ]

theorem Alike.step (h : c.Alike c') : c.step.Alike c'.step := by
  obtain ⟨hresult, hbus⟩ := h.bus.run c.registers.instruction
  exact (h.inStep.step fun _ => hresult).alike (h.inStep.bus_step h.bus fun _ => hbus)

theorem Alike.steps (h : c.Alike c') (count : Nat) : (c.steps count).Alike (c'.steps count) := by
  induction count generalizing c c' with
  | zero => exact h
  | succ count ih => exact ih h.step

theorem Alike.tickLength_eq (h : c.Alike c') (budget : Nat) :
    c'.tickLength budget = c.tickLength budget := by
  rw [tickLength, tickLength]
  congr 1
  ext n
  have hafter := h.steps n
  simp only [tickEnds, stepsTo, Set.mem_ofPred_eq, hafter.stop_eq, hafter.cycles_eq, h.cycles_eq]

end Cpu

/-! ## Polls and steps in turn -/

/-- What happens at one poll of a host. -/
structure Poll where
  /-- What is done to the keyboard. -/
  events : List KeyEvent
  /-- Whether the host is still there. -/
  alive : Bool

/-- A host whose polls are a given sequence, and who does not mind screens. -/
structure Playback where
  polls : Nat → Poll
  made : Nat := 0

instance : Host Playback where
  poll host keyboard :=
    let now := host.polls host.made
    (now.alive, now.events.foldl Keyboard.apply keyboard,
      { polls := host.polls, made := host.made + 1 })
  display host _ := host

/-- Do something to the keyboard of a processor. -/
def Cpu.typed (c : Cpu (MemoryMap Keyboard)) (events : List KeyEvent) : Cpu (MemoryMap Keyboard) :=
  { c with bus := { c.bus with device := events.foldl Keyboard.apply c.bus.device } }

/-- A processor to which nothing happens but polls and, after each of them, the plain steps of one
tick. -/
structure Alternation where
  start : Cpu (MemoryMap Keyboard)
  polls : Nat → Poll
  /-- The cycles that one tick may spend. -/
  budget : Nat

namespace Alternation

variable (a : Alternation)

/-- The processor when the poll with number `i` is due, the first one having number 0. -/
noncomputable def due : Nat → Cpu (MemoryMap Keyboard)
  | 0 => a.start
  | i + 1 =>
    let polled := (due i).typed (a.polls i).events
    polled.steps (polled.tickLength a.budget)

/-- The processor once that poll is made. -/
noncomputable def polled (i : Nat) : Cpu (MemoryMap Keyboard) := (a.due i).typed (a.polls i).events

/-- How that poll, or the tick after it, is the last, if one is: the ending and the processor
left. -/
noncomputable def ending? (i : Nat) : Option (Ending × Cpu (MemoryMap Keyboard)) :=
  if (a.polls i).alive then
    match (a.due (i + 1)).stop with
    | none => none
    | some (.fault _) => some (.halted, a.due (i + 1))
    | some _ => some (.broken, a.due (i + 1))
  else some (.closed, a.polled i)

/-- How it ends within `ticks` ticks, after how many polls, and with which processor. -/
inductive Ends (ticks : Nat) : Ending → Nat → Cpu (MemoryMap Keyboard) → Prop where
  /-- With the first poll or tick that is the last. -/
  | last {k : Nat} {ending : Ending} {c : Cpu (MemoryMap Keyboard)} (hk : k < ticks)
      (hon : ∀ i < k, a.ending? i = none) (hend : a.ending? k = some (ending, c)) :
      Ends ticks ending (k + 1) c
  /-- Not at all: it is cut short. -/
  | unfinished (hon : ∀ i < ticks, a.ending? i = none) : Ends ticks .unfinished ticks (a.due ticks)

variable {a}

theorem due_succ (i : Nat) :
    a.due (i + 1) = (a.polled i).steps ((a.polled i).tickLength a.budget) := rfl

theorem ending?_ne_unfinished {i : Nat} {ending : Ending} {c : Cpu (MemoryMap Keyboard)}
    (h : a.ending? i = some (ending, c)) : ending ≠ .unfinished := by
  unfold ending? at h
  split at h
  · split at h <;> cases h <;> exact Ending.noConfusion
  · cases h
    exact Ending.noConfusion

theorem Ends.exists_due_or_polled {ticks made : Nat} {ending : Ending}
    {c : Cpu (MemoryMap Keyboard)} (h : a.Ends ticks ending made c) :
    ∃ i, c = a.due i ∨ c = a.polled i := by
  cases h with
  | last hk hon hend =>
    unfold ending? at hend
    split at hend
    · split at hend <;> cases hend <;> exact ⟨_, Or.inl rfl⟩
    · cases hend
      exact ⟨_, Or.inr rfl⟩
  | unfinished hon => exact ⟨_, Or.inl rfl⟩

/-- There is one ending. -/
theorem Ends.unique {ticks made made' : Nat} {ending ending' : Ending}
    {c c' : Cpu (MemoryMap Keyboard)} (h : a.Ends ticks ending made c)
    (h' : a.Ends ticks ending' made' c') : ending' = ending ∧ made' = made ∧ c' = c := by
  cases h with
  | last hk hon hend =>
    rename_i k
    cases h' with
    | last hk' hon' hend' =>
      rename_i k'
      have hle : k ≤ k' := Nat.not_lt.1 fun hlt => by simp [hon _ hlt] at hend'
      have hge : k' ≤ k := Nat.not_lt.1 fun hlt => by simp [hon' _ hlt] at hend
      obtain rfl : k' = k := Nat.le_antisymm hge hle
      rw [hend] at hend'
      cases hend'
      exact ⟨rfl, rfl, rfl⟩
    | unfinished hon' => simp [hon' _ hk] at hend
  | unfinished hon =>
    cases h' with
    | last hk' hon' hend' => simp [hon _ hk'] at hend'
    | unfinished hon' => exact ⟨rfl, rfl, rfl⟩

end Alternation

/-! ## A run of the machine -/

namespace Machine

variable {m : Machine} {c : Cpu (MemoryMap Keyboard)}

theorem alike_tick (h : c.Alike m.cpu) :
    (c.steps (c.tickLength m.budget.toNat)).Alike m.tick.2.cpu := by
  have hcleared : c.Alike m.cleared.cpu :=
    h.trans ⟨rfl, rfl, rfl, rfl, rfl⟩
  rw [tick_eq, spend_eq, Cpu.spend_eq_tickLength, hcleared.tickLength_eq]
  exact hcleared.steps _

theorem tickFor_playback (m : Machine) (host : Playback) :
    m.tickFor host = (m.tick.2, host) := by
  unfold tickFor
  split <;> rename_i htick <;> rw [htick]
  rfl

theorem budget_tick (m : Machine) : m.tick.2.budget = m.budget := by
  rw [tick_eq, spend_eq]

/-- One more round of a run whose processor is the plain one. -/
theorem run_round {a : Alternation} {i : Nat} (hdue : (a.due i).Alike m.cpu)
    (hbudget : m.budget.toNat = a.budget) :
    ∃ left, m.run 1 ({ polls := a.polls, made := i } : Playback) =
        ((a.ending? i).elim .unfinished Prod.fst, left, { polls := a.polls, made := i + 1 }) ∧
      left.budget = m.budget ∧ ((a.ending? i).elim (a.due (i + 1)) Prod.snd).Alike left.cpu := by
  obtain ⟨m', hpoll, hbudget', hpolled⟩ : ∃ m', m.poll ({ polls := a.polls, made := i } : Playback) =
      ((a.polls i).alive, m', { polls := a.polls, made := i + 1 }) ∧ m'.budget = m.budget ∧
        (a.polled i).Alike m'.cpu := by
    refine ⟨_, rfl, rfl, hdue.registers_eq, hdue.cycles_eq, hdue.stop_eq, hdue.bus.store_eq, ?_⟩
    exact congrArg ((a.polls i).events.foldl Keyboard.apply) hdue.bus.device_eq
  rw [run_succ, hpoll, Alternation.ending?]
  cases (a.polls i).alive with
  | false => exact ⟨m', rfl, hbudget', hpolled⟩
  | true =>
    have hafter : (a.due (i + 1)).Alike m'.tick.2.cpu := by
      rw [Alternation.due_succ, ← hbudget, ← hbudget']
      exact alike_tick hpolled
    have houtcome : m'.tick.1 = m'.tick.2.outcomeSince m'.cpu.cycles.toNat := rfl
    refine ⟨m'.tick.2, ?_, by rw [budget_tick, hbudget'], ?_⟩
    all_goals
      rw [← hafter.stop_eq]
      unfold outcomeSince at houtcome
      rcases hstop : m'.tick.2.cpu.stop with _ | ⟨cause⟩ | _ | _ <;>
        simp only [hstop] at houtcome ⊢ <;> simp [houtcome, tickFor_playback, run, hafter]

/-- A run ends as the polls and plain steps do, and leaves their processor. -/
theorem ends_run (m : Machine) (polls : Nat → Poll) (ticks : Nat) :
    let a : Alternation := { start := m.cpu, polls, budget := m.budget.toNat }
    ∃ ending left made c, m.run ticks ({ polls } : Playback) = (ending, left, { polls, made }) ∧
      left.budget = m.budget ∧ a.Ends ticks ending made c ∧ c.Alike left.cpu := by
  intro a
  induction ticks with
  | zero => exact ⟨_, m, 0, _, rfl, rfl, .unfinished (by simp), Cpu.Alike.refl _⟩
  | succ ticks ih =>
    obtain ⟨ending, left, made, c, hrun, hbudget, hends, halike⟩ := ih
    cases hends with
    | last hk hon hend =>
      -- the run was over before, so the tick that is added is never made
      have hover : (m.run ticks ({ polls } : Playback)).1 ≠ .unfinished := by
        rw [hrun]
        exact Alternation.ending?_ne_unfinished hend
      refine ⟨ending, left, _, c, ?_, hbudget, .last (Nat.lt_succ_of_lt hk) hon hend, halike⟩
      rw [run_of_ended hover, hrun]
    | unfinished hon =>
      obtain ⟨after, hround, hbudget', halike'⟩ :=
        run_round (a := a) halike (congrArg UInt64.toNat hbudget)
      rw [run_add hrun, hround]
      cases hend : a.ending? ticks with
      | some last =>
        rw [hend] at halike'
        exact ⟨_, after, _, _, rfl, hbudget'.trans hbudget, .last (Nat.lt_succ_self ticks) hon hend,
          halike'⟩
      | none =>
        rw [hend] at halike'
        refine ⟨_, after, _, _, rfl, hbudget'.trans hbudget, .unfinished fun i hi => ?_, halike'⟩
        rcases Nat.lt_succ_iff_lt_or_eq.1 hi with hlt | rfl
        · exact hon i hlt
        · exact hend

/-! ## Without input -/

/-- Polls that leave the keyboard alone, at which the host may be there or gone. -/
def silent (alive : Nat → Bool) (i : Nat) : Poll := { events := [], alive := alive i }

theorem exists_due_eq_steps (a : Alternation) (hsilent : ∀ i, (a.polls i).events = []) (i : Nat) :
    ∃ n, a.due i = a.start.steps n ∧ a.polled i = a.start.steps n := by
  have hpolled : ∀ i, a.polled i = a.due i := by
    intro i
    rw [Alternation.polled, hsilent]
    rfl
  simp only [hpolled, and_self]
  induction i with
  | zero => exact ⟨0, rfl⟩
  | succ i ih =>
    obtain ⟨n, hn⟩ := ih
    exact ⟨n + _, by rw [Alternation.due_succ, hpolled, hn, ← Cpu.steps_add]⟩

/-- Without input a run is plain steps and nothing else. -/
theorem exists_alike_steps (m : Machine) (alive : Nat → Bool) (ticks : Nat) :
    ∃ n, (m.cpu.steps n).Alike (m.run ticks ({ polls := silent alive } : Playback)).2.1.cpu := by
  obtain ⟨ending, left, made, c, hrun, -, hends, halike⟩ := ends_run m (silent alive) ticks
  obtain ⟨i, hc⟩ := hends.exists_due_or_polled
  obtain ⟨n, hdue, hpolled⟩ := exists_due_eq_steps
    { start := m.cpu, polls := silent alive, budget := m.budget.toNat } (fun _ => rfl) i
  have hsteps : c = m.cpu.steps n := hc.elim (·.trans hdue) (·.trans hpolled)
  rw [hrun]
  exact ⟨n, hsteps ▸ halike⟩

/-- Of two stretches of plain steps the longer goes on from where the shorter ends. -/
theorem alike_steps_or {c one two : Cpu (MemoryMap Keyboard)} {m n : Nat}
    (hone : (c.steps m).Alike one) (htwo : (c.steps n).Alike two) :
    ∃ k, (one.steps k).Alike two ∨ (two.steps k).Alike one := by
  rcases Nat.le_total m n with hle | hle
  · obtain ⟨k, rfl⟩ := Nat.exists_eq_add_of_le hle
    rw [Cpu.steps_add] at htwo
    exact ⟨k, Or.inl ((hone.steps k).symm.trans htwo)⟩
  · obtain ⟨k, rfl⟩ := Nat.exists_eq_add_of_le hle
    rw [Cpu.steps_add] at hone
    exact ⟨k, Or.inr ((htwo.steps k).symm.trans hone)⟩

/-- A run ends as the polls and, after each, the plain steps of one tick do: in the same way, after
as many polls, and with the same processor but for the note that the screen was written. The steps
of a tick are the fewest, at least one, that stop the processor or spend the budget. In particular,
two runs without input from one processor, whatever their clocks and lengths, are at two points of
one sequence of steps. -/
theorem run_is_polls_and_plain_steps (m : Machine) (polls : Nat → Poll) :
    let a : Alternation := { start := m.cpu, polls, budget := m.budget.toNat }
    (∀ i, IsLeast ((a.polled i).tickEnds a.budget) ((a.polled i).tickLength a.budget)) ∧
    (∀ ticks,
      let left := m.run ticks ({ polls } : Playback)
      ∃ c, c.Alike left.2.1.cpu ∧
        ∀ ending made c', a.Ends ticks ending made c' ↔
          ending = left.1 ∧ made = left.2.2.made ∧ c' = c) ∧
    (∀ (other : Machine) (alive alive' : Nat → Bool) (ticks ticks' : Nat),
      let rival := { other with cpu := m.cpu }
      let one := (m.run ticks ({ polls := silent alive } : Playback)).2.1.cpu
      let two := (rival.run ticks' ({ polls := silent alive' } : Playback)).2.1.cpu
      ∃ n, (one.steps n).Alike two ∨ (two.steps n).Alike one) := by
  intro a
  refine ⟨fun i => Cpu.isLeast_tickLength _ _, fun ticks => ?_, ?_⟩
  · obtain ⟨ending, left, made, c, hrun, -, hends, halike⟩ := ends_run m polls ticks
    simp only [hrun]
    refine ⟨c, halike, fun ending' made' c' => ⟨hends.unique, ?_⟩⟩
    rintro ⟨rfl, rfl, rfl⟩
    exact hends
  · intro other alive alive' ticks ticks' rival one two
    obtain ⟨n, hone⟩ := exists_alike_steps m alive ticks
    obtain ⟨n', htwo⟩ := exists_alike_steps rival alive' ticks'
    exact alike_steps_or hone htwo

end Machine

end Challenger1P
