import Challenger1P.Mos6502.Run

/-!
# What a processor does to its bus

`Recorded` is a bus that keeps a list of what is done to it. A transaction run there ends as it does
on the bare bus, and its accesses are at the end of the list (`run_recorded`). So the record of a
processor that makes some steps on a recording bus is what those steps do to any bus:
`Cpu.accesses`.

* `recording_steps`: recording changes nothing else.
* `accesses_succ`: the accesses of a run are those of its steps, one after the other.
* `WriteFree.accesses`: a transaction without a write node never writes.
* `answers_accesses`: a bus gives the bytes that are listed as read (`Bus.Answers`).
-/

namespace Challenger1P

namespace Recorded

variable {β : Type} [Bus β]

theorem read_mk (bus : β) (log : Array Access) (address : UInt16) :
    Bus.read (⟨bus, log⟩ : Recorded β) address = ((Bus.read bus address).1,
      ⟨(Bus.read bus address).2, log.push (.read address (Bus.read bus address).1)⟩) := rfl

theorem write_mk (bus : β) (log : Array Access) (address : UInt16) (value : UInt8) :
    Bus.write (⟨bus, log⟩ : Recorded β) address value =
      ⟨Bus.write bus address value, log.push (.write address value)⟩ := rfl

end Recorded

namespace Transaction

variable {α γ β : Type} [Bus β]

/-! ## Single accesses -/

@[simp] theorem run_done (result : α) (bus : β) :
    (Transaction.done result).run bus = (result, bus) := rfl

@[simp] theorem accesses_done (result : α) (bus : β) :
    (Transaction.done result).accesses bus = [] := rfl

@[simp] theorem run_readByte (address : UInt16) (bus : β) :
    (readByte address).run bus = Bus.read bus address := rfl

@[simp] theorem accesses_readByte (address : UInt16) (bus : β) :
    (readByte address).accesses bus = [.read address (Bus.read bus address).1] := rfl

/-! ## The record -/

theorem run_recorded (t : Transaction α) (bus : β) (log : Array Access) :
    t.run (⟨bus, log⟩ : Recorded β) =
      ((t.run bus).1, ⟨(t.run bus).2, log ++ (t.accesses bus).toArray⟩) := by
  induction t generalizing bus log with
  | done result => simp
  | read address next ih =>
    rw [run, Recorded.read_mk]
    simp only [ih, run, accesses, List.push_append_toArray]
  | write address value next ih =>
    rw [run, Recorded.write_mk]
    simp only [ih, run, accesses, List.push_append_toArray]

/-! ## Without writes -/

/-- Nowhere in the tree is a write. -/
def WriteFree : Transaction α → Prop
  | .done _ => True
  | .read _ next => ∀ value, (next value).WriteFree
  | .write _ _ _ => False

theorem WriteFree.bind {t : Transaction α} {f : α → Transaction γ} (ht : t.WriteFree)
    (hf : ∀ result, (f result).WriteFree) : (t.bind f).WriteFree := by
  induction t with
  | done result => exact hf result
  | read address next ih => exact fun value => ih value (ht value)
  | write address value next ih => exact ht.elim

/-- What reads keep true of a bus, a transaction without writes keeps true of it. -/
theorem WriteFree.run_induction {P : β → Prop}
    (hread : ∀ bus address, P bus → P (Bus.read bus address).2) {t : Transaction α}
    (ht : t.WriteFree) {bus : β} (h : P bus) : P (t.run bus).2 := by
  induction t generalizing bus with
  | done result => exact h
  | read address next ih => exact ih _ (ht _) (hread bus address h)
  | write address value next ih => exact ht.elim

theorem WriteFree.accesses {t : Transaction α} (h : t.WriteFree) (bus : β) :
    ∀ access ∈ t.accesses bus, access.isWrite = false := by
  induction t generalizing bus with
  | done result => simp
  | read address next ih =>
    intro access hmem
    rcases List.mem_cons.1 hmem with rfl | hmem
    · rfl
    · exact ih _ (h _) _ access hmem
  | write address value next ih => exact h.elim

end Transaction

/-! ## Answers -/

namespace Bus

variable {β : Type} [Bus β]

/-- The bus gives the bytes that the list says were read, one access after the other. -/
def Answers : β → List Access → Prop
  | _, [] => True
  | bus, .read address value :: rest =>
    (Bus.read bus address).1 = value ∧ Answers (Bus.read bus address).2 rest
  | bus, .write address value :: rest => Answers (Bus.write bus address value) rest

instance decidableAnswers : (bus : β) → (log : List Access) → Decidable (Answers bus log)
  | _, [] => .isTrue trivial
  | bus, .read address _ :: rest =>
    have := decidableAnswers (Bus.read bus address).2 rest
    inferInstanceAs (Decidable (_ ∧ _))
  | bus, .write address value :: rest => decidableAnswers (Bus.write bus address value) rest

/-- What a list of accesses leaves of a bus. -/
def after : β → List Access → β
  | bus, [] => bus
  | bus, .read address _ :: rest => after (Bus.read bus address).2 rest
  | bus, .write address value :: rest => after (Bus.write bus address value) rest

theorem answers_append (bus : β) (log rest : List Access) :
    Answers bus (log ++ rest) ↔ Answers bus log ∧ Answers (after bus log) rest := by
  induction log generalizing bus with
  | nil => simp [Answers, after]
  | cons access log ih => cases access <;> simp [Answers, after, ih, and_assoc]

theorem answers_accesses {α : Type} (t : Transaction α) (bus : β) :
    Answers bus (t.accesses bus) := by
  induction t generalizing bus with
  | done result => trivial
  | read address next ih => exact ⟨rfl, ih _ _⟩
  | write address value next ih => exact ih _

/-- What is read at given addresses is determined by the bus. -/
theorem Answers.reads_inj {place : Nat → UInt16} {values others : List UInt8} {bus : β}
    (hlen : values.length = others.length)
    (h : Answers bus (values.mapIdx fun i value => .read (place i) value))
    (h' : Answers bus (others.mapIdx fun i value => .read (place i) value)) : values = others := by
  induction values generalizing others bus place with
  | nil => exact (List.eq_nil_of_length_eq_zero hlen.symm).symm
  | cons value values ih =>
    cases others with
    | nil => cases hlen
    | cons other others =>
      rw [List.mapIdx_cons] at h h'
      have hvalue : value = other := h.1.symm.trans h'.1
      have hrest : values = others := ih (Nat.succ.inj hlen) h.2 h'.2
      rw [hvalue, hrest]

end Bus

namespace Cpu

variable {β : Type}

/-- The same processor on a bus that records, with `log` recorded so far. -/
def recording (c : Cpu β) (log : Array Access) : Cpu (Recorded β) :=
  { registers := c.registers, cycles := c.cycles, bus := ⟨c.bus, log⟩, stop := c.stop }

@[simp] theorem accesses_recording (c : Cpu β) (log : Array Access) :
    (c.recording log).bus.accesses = log := rfl

theorem bus_charge (c : Cpu β) (cost : Nat) : (c.charge cost).bus = c.bus := by
  unfold charge
  split <;> rfl

theorem registers_charge (c : Cpu β) (cost : Nat) : (c.charge cost).registers = c.registers := by
  unfold charge
  split <;> rfl

theorem recording_charge (c : Cpu β) (log : Array Access) (cost : Nat) :
    (c.recording log).charge cost = (c.charge cost).recording log := by
  have hcycles : (c.recording log).cycles = c.cycles := rfl
  by_cases h : c.cycles.toNat + cost < UInt64.size
  · rw [charge, charge, hcycles, if_pos h, if_pos h]
    rfl
  · rw [charge, charge, hcycles, if_neg h, if_neg h]
    rfl

variable [Bus β]

/-- What the next `count` steps do to the bus, first to last. -/
def accesses (count : Nat) (c : Cpu β) : List Access :=
  ((c.recording #[]).steps count).bus.accesses.toList

/-- A step whose instruction completes. -/
theorem step_of_ok {c : Cpu β} (h : c.stop = none) {after : Registers} {cost : Nat} {bus : β}
    (hrun : c.registers.instruction.run c.bus = ((after, .ok cost), bus)) :
    c.step = charge { registers := after, cycles := c.cycles, bus } cost := by
  obtain ⟨registers, cycles, bus, stop⟩ := c
  subst h
  simp only [step, hrun]

/-- A step whose instruction is not completed. -/
theorem step_of_error {c : Cpu β} (h : c.stop = none) {after : Registers} {stop : Stop} {bus : β}
    (hrun : c.registers.instruction.run c.bus = ((after, .error stop), bus)) :
    c.step = { registers := after, cycles := c.cycles, bus, stop := some stop } := by
  obtain ⟨registers, cycles, bus, stop⟩ := c
  subst h
  simp only [step, hrun]

theorem bus_step {c : Cpu β} (h : c.stop = none) :
    c.step.bus = (c.registers.instruction.run c.bus).2 := by
  rcases hrun : c.registers.instruction.run c.bus with ⟨⟨after, cost | stop⟩, bus⟩
  · rw [step_of_error h hrun]
  · rw [step_of_ok h hrun, bus_charge]

theorem recording_step {c : Cpu β} (h : c.stop = none) (log : Array Access) :
    (c.recording log).step =
      c.step.recording (log ++ (c.registers.instruction.accesses c.bus).toArray) := by
  have hrec := Transaction.run_recorded c.registers.instruction c.bus log
  rcases hrun : c.registers.instruction.run c.bus with ⟨⟨after, cost | stop⟩, bus⟩
  · rw [hrun] at hrec
    rw [step_of_error h hrun, step_of_error (c := c.recording log) h hrec]
    rfl
  · rw [hrun] at hrec
    rw [step_of_ok h hrun, step_of_ok (c := c.recording log) h hrec, ← recording_charge]
    rfl

theorem exists_recording_steps (count : Nat) (c : Cpu β) : ∃ made : List Access,
    ∀ log, (c.recording log).steps count = (c.steps count).recording (log ++ made.toArray) := by
  induction count generalizing c with
  | zero => exact ⟨[], fun log => by simp [steps]⟩
  | succ count ih =>
    cases h : c.stop with
    | none =>
      obtain ⟨made, hmade⟩ := ih c.step
      refine ⟨c.registers.instruction.accesses c.bus ++ made, fun log => ?_⟩
      rw [steps, recording_step h, hmade, steps]
      simp
    | some stop =>
      have hc : c.stop ≠ none := by simp [h]
      refine ⟨[], fun log => ?_⟩
      rw [steps_of_stopped hc, steps_of_stopped (c := c.recording log) hc]
      simp

/-- Whatever is recorded already, `count` steps do the same and record the same. -/
theorem recording_steps (count : Nat) (c : Cpu β) (log : Array Access) :
    (c.recording log).steps count =
      (c.steps count).recording (log ++ (c.accesses count).toArray) := by
  obtain ⟨made, hmade⟩ := exists_recording_steps count c
  have h : c.accesses count = made := by rw [accesses, hmade]; simp
  rw [hmade, h]

theorem accesses_succ (count : Nat) (c : Cpu β) :
    c.accesses (count + 1) = c.accesses 1 ++ c.step.accesses count := by
  have h := recording_steps 1 c #[]
  simp only [steps, Array.empty_append] at h
  have hrest := recording_steps count c.step (c.accesses 1).toArray
  rw [accesses, steps, h, hrest]
  simp

theorem accesses_one {c : Cpu β} (h : c.stop = none) :
    c.accesses 1 = c.registers.instruction.accesses c.bus := by
  rw [accesses, steps, recording_step h]
  simp [steps]

theorem accesses_of_stopped {c : Cpu β} (h : c.stop ≠ none) (count : Nat) :
    c.accesses count = [] := by
  rw [accesses, steps_of_stopped (c := c.recording #[]) h]
  rfl

end Cpu

end Challenger1P
