import Challenger1P.Proofs.Machine.Halting
import Challenger1P.Proofs.Memory.Screen

/-!
# No screen update is lost or shown twice

A tick begins with the note cleared that the screen was written, so at its end the note says whether
the tick wrote to the screen (`tick_screenWritten`). The host is told accordingly, and so what it was
shown last is what video RAM holds whenever it is polled (`InSync`, `inSync_run`).
-/

namespace Challenger1P

/-! ## Ticks -/

namespace Cpu

variable {δ : Type} [Device δ]

/-- Every step takes time, so a budget of nothing is spent by the first. -/
theorem spend_zero (c : Cpu (MemoryMap δ)) : c.spend 0 = (1, c.step) := by
  rw [spend, spendUntil]
  refine dif_neg ?_
  rintro ⟨hstop, hgoal⟩
  have := cycles_lt_step hstop
  omega

end Cpu

namespace Machine

/-- At the end of a tick the note says whether the tick wrote to the screen. -/
theorem tick_screenWritten (m : Machine) :
    m.tick.2.memory.screenWritten = m.tickAccesses.any Access.hitsScreen := by
  rw [tick_eq, tickAccesses, spend_eq]
  show (m.cleared.cpu.spend m.budget.toNat).2.bus.screenWritten = _
  rw [(Cpu.spend_eq_steps _ _).2, Cpu.screenWritten_steps]
  rfl

theorem tick_screen {m : Machine} (h : m.tickAccesses.any Access.hitsScreen = false) :
    m.tick.2.memory.screen = m.memory.screen := by
  rw [tickAccesses, spend_eq] at h
  rw [tick_eq, spend_eq]
  show (m.cleared.cpu.spend m.budget.toNat).2.bus.screen = _
  rw [(Cpu.spend_eq_steps _ _).2, Cpu.screen_steps h]
  rfl

/-- A tick that goes on hands out the screen if it wrote to it. -/
theorem tick_running {m : Machine} {cycles : Nat} {screen : Option Screen}
    (h : m.tick.1 = .running cycles screen) :
    screen =
      if m.tickAccesses.any Access.hitsScreen then some m.tick.2.memory.screen else none := by
  rw [← tick_screenWritten]
  rw [tick_eq] at h ⊢
  simp only [outcomeSince] at h
  split at h
  · cases h
  · cases h
  · cases h
    rfl

/-! ## Runs -/

variable {σ : Type} [Host σ]

/-- What a tick that goes on shows a watched host. -/
theorem shown_tickFor {m : Machine} {cycles : Nat} {screen : Option Screen}
    (h : m.tick.1 = .running cycles screen) (w : Watched σ) :
    (m.tickFor w).2.shown =
      w.shown ++ if m.tickAccesses.any Access.hitsScreen then [m.tick.2.memory.screen] else [] := by
  have hscreen := tick_running h
  rcases htick : m.tick with ⟨outcome, after⟩
  rw [htick] at h hscreen
  simp only at h hscreen
  subst h
  by_cases hhit : m.tickAccesses.any Access.hitsScreen = true
  · rw [if_pos hhit] at hscreen ⊢
    subst hscreen
    simp only [tickFor, htick]
    rfl
  · rw [if_neg hhit] at hscreen ⊢
    subst hscreen
    simp only [tickFor, htick, List.append_nil]

theorem shown_tickFor_of_not_running {m : Machine}
    (h : ∀ cycles screen, m.tick.1 ≠ .running cycles screen) (w : Watched σ) :
    (m.tickFor w).2.shown = w.shown := by
  unfold tickFor
  split
  · rename_i htick
    exact absurd (by rw [htick]) (h _ _)
  · rfl

/-- What the host was shown last is what video RAM holds, with `first` for a host that was shown
nothing yet. -/
def InSync (first : Screen) (m : Machine) (w : Watched σ) : Prop :=
  m.memory.screen = w.shown.getLastD first

theorem InSync.poll {first : Screen} {m : Machine} {w : Watched σ} (h : InSync first m w) :
    InSync first (m.poll w).2.1 (m.poll w).2.2 := by
  unfold InSync
  rw [(poll_watched m w).2, ← h]
  exact MemoryMap.screen_eq_of_store_eq (frozen_poll m w).store_eq

theorem InSync.tickFor {first : Screen} {m : Machine} {w : Watched σ} (h : InSync first m w)
    {cycles : Nat} {screen : Option Screen} (htick : m.tick.1 = .running cycles screen) :
    InSync first (m.tickFor w).1 (m.tickFor w).2 := by
  unfold InSync
  rw [tickFor_fst, shown_tickFor htick]
  split
  · rw [List.getLastD_concat]
  · rename_i hhit
    rw [List.append_nil, tick_screen (by simpa using hhit), h]

theorem inSync_run {first : Screen} {m : Machine} {w : Watched σ} (h : InSync first m w)
    {ticks : Nat} (hend : (m.run ticks w).1 = .unfinished ∨ (m.run ticks w).1 = .closed) :
    InSync first (m.run ticks w).2.1 (m.run ticks w).2.2 := by
  induction ticks generalizing m w with
  | zero => exact h
  | succ ticks ih =>
    have hpoll := h.poll
    rcases hp : m.poll w with ⟨_ | _, m', w'⟩ <;> simp only [run_succ, hp] at hend hpoll ⊢
    · exact hpoll
    · cases htick : m'.tick.1 with
      | running cycles screen =>
        simp only [htick] at hend ⊢
        exact ih (hpoll.tickFor htick) hend
      | halted => simp [htick] at hend
      | broken => simp [htick] at hend

omit [Host σ] in
/-- Byte by byte, what the host was shown last, or what was there at first. -/
theorem InSync.get_store {m first : Machine} {w : Watched σ} (h : InSync first.memory.screen m w)
    (i : Fin 2048) :
    m.memory.store.get (0xD000 + UInt16.ofNat i) =
      w.shown.getLast?.elim (first.memory.store.get (0xD000 + UInt16.ofNat i)) (·.get i) := by
  rw [← MemoryMap.get_screen, h, List.getLastD_eq_getLast?]
  cases w.shown.getLast? with
  | none => exact MemoryMap.get_screen first.memory i
  | some screen => rfl

/-- The next tick goes on, and one of its instructions writes to video RAM. -/
def Updates (m : Machine) : Prop :=
  (∃ cycles screen, m.tick.1 = .running cycles screen) ∧
    ∃ access ∈ m.tickAccesses, access.hitsScreen = true

theorem shown_tickFor_of_updates {m : Machine} (h : m.Updates) (w : Watched σ) :
    (m.tickFor w).2.shown = w.shown ++ [m.tick.2.memory.screen] := by
  obtain ⟨⟨cycles, screen, htick⟩, hhit⟩ := h
  rw [shown_tickFor htick, if_pos (List.any_eq_true.2 hhit)]

theorem shown_tickFor_of_not_updates {m : Machine} (h : ¬ m.Updates) (w : Watched σ) :
    (m.tickFor w).2.shown = w.shown := by
  by_cases hrunning : ∃ cycles screen, m.tick.1 = .running cycles screen
  · have hhit : ¬ m.tickAccesses.any Access.hitsScreen = true := by
      intro hany
      exact h ⟨hrunning, List.any_eq_true.1 hany⟩
    obtain ⟨cycles, screen, htick⟩ := hrunning
    rw [shown_tickFor htick, if_neg hhit, List.append_nil]
  · refine shown_tickFor_of_not_running ?_ w
    intro cycles screen htick
    exact hrunning ⟨cycles, screen, htick⟩

/-- One more tick of a run that has come to a poll. -/
theorem run_one_more {ticks : Nat} {m before polled : Machine} {w told left : Watched σ}
    (hrun : m.run ticks w = (.unfinished, before, left))
    (hpoll : before.poll left = (true, polled, told)) :
    (m.run (ticks + 1) w).2 = polled.tickFor told := by
  rw [run_add hrun, run_succ, hpoll]
  cases htick : polled.tick.1 <;> simp [htick, run]

/-- A run cut short after `ticks` ticks is a run at its next poll. There, and when the host has gone
away, the host was last shown what video RAM holds from `$D000` to `$D7FF`, or nothing if that never
changed. The tick that follows shows it one screen more, the one at the tick's end, if it goes on
and writes to video RAM, and nothing otherwise. -/
theorem every_screen_update_is_shown_once (m : Machine) (host : σ) (ticks : Nat) :
    let seen := m.run ticks ({ host } : Watched σ)
    m.run ticks host = (seen.1, seen.2.1, seen.2.2.host) ∧
    (seen.1 = .unfinished ∨ seen.1 = .closed →
      seen.2.1.memory.screen = seen.2.2.shown.getLastD m.memory.screen ∧
      ∀ i : Fin 2048, seen.2.1.memory.store.get (0xD000 + UInt16.ofNat i) =
        seen.2.2.shown.getLast?.elim (m.memory.store.get (0xD000 + UInt16.ofNat i)) (·.get i)) ∧
    (seen.1 = .unfinished → ∀ polled told, seen.2.1.poll seen.2.2 = (true, polled, told) →
      let next := m.run (ticks + 1) ({ host } : Watched σ)
      next.2.1 = polled.tick.2 ∧
      (polled.Updates → next.2.2.shown = seen.2.2.shown ++ [next.2.1.memory.screen] ∧
        ∀ i : Fin 2048, next.2.1.memory.screen.get i =
          next.2.1.memory.store.get (0xD000 + UInt16.ofNat i)) ∧
      (¬ polled.Updates → next.2.2.shown = seen.2.2.shown)) := by
  intro seen
  have hstart : InSync m.memory.screen m ({ host } : Watched σ) := rfl
  refine ⟨run_watched ticks m { host }, fun hend => ?_, ?_⟩
  · have hseen := inSync_run hstart hend
    exact ⟨hseen, hseen.get_store⟩
  intro hend polled told hpoll next
  have hrun : m.run ticks ({ host } : Watched σ) = (.unfinished, seen.2.1, seen.2.2) := by
    rw [← hend]
  have hnext : next.2 = polled.tickFor told := run_one_more hrun hpoll
  have htold : told.shown = seen.2.2.shown := by
    rw [← (poll_watched seen.2.1 seen.2.2).2, hpoll]
  rw [hnext, tickFor_fst]
  refine ⟨rfl, fun hupdates => ⟨?_, MemoryMap.get_screen _⟩, fun hupdates => ?_⟩
  · rw [shown_tickFor_of_updates hupdates, htold]
  · rw [shown_tickFor_of_not_updates hupdates, htold]

/-- With no time to a tick, every tick is one instruction; here the first is `STA $D000`. -/
theorem every_screen_update_is_shown_once_on_store :
    let memory : MemoryMap Keyboard :=
      { store := Store.blank.load 0x0200 [0x8D, 0x00, 0xD0], device := {} }
    let m : Machine :=
      { cpu := { registers := { a := 0x41, sp := 0xFD, pc := 0x0200 }, bus := memory }
        clock := { tickNanos := 0 }, budget := 0, budget_eq := by decide +kernel }
    let after := m.run 1 ({ host := { polls := [[]] } } : Watched Script)
    m.Updates ∧ after.1 = .unfinished ∧ after.2.2.shown = [after.2.1.memory.screen] ∧
      after.2.1.memory.screen = after.2.2.shown.getLastD m.memory.screen := by
  intro memory m after
  have hspend : m.spend = (1, { m with cpu := m.cleared.cpu.step }) := by
    rw [spend_eq, show m.budget.toNat = 0 from rfl, Cpu.spend_zero]
  have hstop : m.cleared.cpu.step.stop = none := by decide +kernel
  have hhit : (m.cleared.cpu.registers.instruction.accesses m.cleared.cpu.bus).any
      Access.hitsScreen = true := by decide +kernel
  obtain ⟨cycles, screen, htick⟩ : ∃ cycles screen, m.tick.1 = .running cycles screen := by
    rw [tick_eq, hspend]
    simp only [outcomeSince, hstop]
    exact ⟨_, _, rfl⟩
  have hupdates : m.Updates := by
    refine ⟨⟨cycles, screen, htick⟩, List.any_eq_true.1 ?_⟩
    rw [tickAccesses, hspend, Cpu.accesses_one rfl]
    exact hhit
  have hend : after.1 = .unfinished := by
    show (m.run 1 _).1 = _
    have hpoll : m.poll ({ host := { polls := [[]] } } : Watched Script) =
        (true, m, { host := { polls := [], made := 1 } }) := rfl
    rw [run_succ, hpoll]
    simp only [htick, run]
  obtain ⟨-, -, hnext⟩ := every_screen_update_is_shown_once m ({ polls := [[]] } : Script) 0
  obtain ⟨-, hsync, -⟩ := every_screen_update_is_shown_once m ({ polls := [[]] } : Script) 1
  exact ⟨hupdates, hend, ((hnext rfl m _ rfl).2.1 hupdates).1, (hsync (Or.inl hend)).1⟩

end Machine

end Challenger1P
