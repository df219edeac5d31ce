import Challenger1P.Bus.Basic

/-!
# Transactions

A `Transaction α` is a computation that talks to a bus and ends with an `α`, written down as the
tree of its accesses: it is finished, or it reads an address and goes on with the byte it gets, or
it writes a byte and goes on. The processor is described by transactions, so that one text says
what an instruction computes and, to the access, what the bus sees of it.

* `run`: carry a transaction out on a bus.
* `accesses`: the accesses it makes there, in order.
* `Ensures`: a property of the result that holds whatever the bus answers.

Running respects sequencing (`run_bind`, `accesses_bind`), what every access keeps true of a bus a
transaction does too (`run_induction`), and what is ensured holds of every run (`Ensures.run`).
-/

namespace Challenger1P

/-- A computation over a bus, as the tree of the accesses it makes. -/
inductive Transaction (α : Type) where
  | done (result : α)
  | read (address : UInt16) (next : UInt8 → Transaction α)
  | write (address : UInt16) (value : UInt8) (next : Transaction α)

namespace Transaction

variable {α γ β : Type}

/-- The first transaction, then the one that its result asks for. -/
def bind : Transaction α → (α → Transaction γ) → Transaction γ
  | .done result, f => f result
  | .read address next, f => .read address fun value => (next value).bind f
  | .write address value next, f => .write address value (next.bind f)

instance : Monad Transaction where
  pure := .done
  bind := bind

def readByte (address : UInt16) : Transaction UInt8 := .read address .done

def writeByte (address : UInt16) (value : UInt8) : Transaction Unit := .write address value (.done ())

/-- Carry a transaction out on a bus. -/
def run [Bus β] : Transaction α → β → α × β
  | .done result, bus => (result, bus)
  | .read address next, bus =>
    match Bus.read bus address with
    | (value, bus) => (next value).run bus
  | .write address value next, bus => next.run (Bus.write bus address value)

/-- The accesses that a transaction makes on a bus, first to last. -/
def accesses [Bus β] : Transaction α → β → List Access
  | .done _, _ => []
  | .read address next, bus =>
    match Bus.read bus address with
    | (value, bus) => .read address value :: (next value).accesses bus
  | .write address value next, bus =>
    .write address value :: next.accesses (Bus.write bus address value)

/-- Every result that a transaction can end with, whatever it reads, satisfies `P`. -/
def Ensures (P : α → Prop) : Transaction α → Prop
  | .done result => P result
  | .read _ next => ∀ value, (next value).Ensures P
  | .write _ _ next => next.Ensures P

/-! ## Sequencing -/

@[simp] theorem pure_eq (result : α) : (pure result : Transaction α) = .done result := rfl

@[simp] theorem bind_eq (t : Transaction α) (f : α → Transaction γ) : t >>= f = t.bind f := rfl

@[simp] theorem map_eq (f : α → γ) (t : Transaction α) :
    f <$> t = t.bind fun result => .done (f result) := rfl

theorem bind_assoc {δ : Type} (t : Transaction α) (f : α → Transaction γ) (g : γ → Transaction δ) :
    (t.bind f).bind g = t.bind fun result => (f result).bind g := by
  induction t with
  | done result => rfl
  | read address next ih => simp [bind, ih]
  | write address value next ih => simp [bind, ih]

@[simp] theorem run_bind [Bus β] (t : Transaction α) (f : α → Transaction γ) (bus : β) :
    (t.bind f).run bus = (f (t.run bus).1).run (t.run bus).2 := by
  induction t generalizing bus with
  | done result => rfl
  | read address next ih => simp only [bind, run, ih]
  | write address value next ih => simp only [bind, run, ih]

@[simp] theorem accesses_bind [Bus β] (t : Transaction α) (f : α → Transaction γ) (bus : β) :
    (t.bind f).accesses bus = t.accesses bus ++ (f (t.run bus).1).accesses (t.run bus).2 := by
  induction t generalizing bus with
  | done result => rfl
  | read address next ih => simp only [bind, run, accesses, ih, List.cons_append]
  | write address value next ih => simp only [bind, run, accesses, ih, List.cons_append]

/-- What every access keeps true of a bus, a transaction keeps true of it. -/
theorem run_induction [Bus β] {P : β → Prop}
    (hread : ∀ bus address, P bus → P (Bus.read bus address).2)
    (hwrite : ∀ bus address value, P bus → P (Bus.write bus address value))
    (t : Transaction α) {bus : β} (h : P bus) : P (t.run bus).2 := by
  induction t generalizing bus with
  | done result => exact h
  | read address next ih => exact ih _ (hread bus address h)
  | write address value next ih => exact ih (hwrite bus address value h)

/-! ## What is ensured -/

theorem Ensures.run [Bus β] {P : α → Prop} {t : Transaction α} (h : t.Ensures P) (bus : β) :
    P (t.run bus).1 := by
  induction t generalizing bus with
  | done result => exact h
  | read address next ih => exact ih _ (h _) _
  | write address value next ih => exact ih h _

theorem Ensures.mono {P Q : α → Prop} (hPQ : ∀ result, P result → Q result) {t : Transaction α}
    (h : t.Ensures P) : t.Ensures Q := by
  induction t with
  | done result => exact hPQ _ h
  | read address next ih => exact fun value => ih value (h value)
  | write address value next ih => exact ih h

theorem ensures_true (t : Transaction α) : t.Ensures fun _ => True := by
  induction t with
  | done result => trivial
  | read address next ih => exact ih
  | write address value next ih => exact ih

theorem Ensures.bind {P : α → Prop} {Q : γ → Prop} {t : Transaction α} {f : α → Transaction γ}
    (ht : t.Ensures P) (hf : ∀ result, P result → (f result).Ensures Q) : (t.bind f).Ensures Q := by
  induction t with
  | done result => exact hf _ ht
  | read address next ih => exact fun value => ih value (ht value)
  | write address value next ih => exact ih ht

/-- What follows a transaction matters only for the results that it can have. -/
theorem Ensures.bind_congr {P : α → Prop} {t : Transaction α} {f g : α → Transaction γ}
    (ht : t.Ensures P) (h : ∀ result, P result → f result = g result) : t.bind f = t.bind g := by
  induction t with
  | done result => exact h _ ht
  | read address next ih => exact congrArg (read address) (funext fun value => ih value (ht value))
  | write address value next ih => exact congrArg (write address value) (ih ht)

end Transaction

end Challenger1P
