import Challenger1P.Mos6502.Stack
import Challenger1P.Proofs.Bus.Recording

/-!
# Pushes and pulls on the bus

Where bytes go on the stack and where they come from, as numbers: `values` are pushed to
`$0100 + sp` and the addresses below it (`pushed`), and pulled from the addresses above it
(`pulled`). Nothing wraps, because only what fits is pushed or pulled.
-/

namespace Challenger1P

/-- Writes from the stack pointer downwards. -/
def pushed (sp : UInt8) (values : List UInt8) : List Access :=
  values.mapIdx fun i value => .write (UInt16.ofNat (0x0100 + sp.toNat - i)) value

/-- Reads upwards from after the stack pointer. -/
def pulled (sp : UInt8) (values : List UInt8) : List Access :=
  values.mapIdx fun i value => .read (UInt16.ofNat (0x0100 + sp.toNat + 1 + i)) value

theorem stackAddress_eq (sp : UInt8) : stackAddress sp = UInt16.ofNat (0x0100 + sp.toNat) := by
  have := sp.toNat_lt
  rw [← UInt16.toNat_inj, stackAddress, UInt16.toNat_add, UInt16.toNat_ofNat']
  simp

theorem toNat_pushed_sp {sp : UInt8} (h : 0 < sp.toNat) : (sp - 1).toNat = sp.toNat - 1 := by
  have hle : (1 : UInt8) ≤ sp := UInt8.le_iff_toNat_le.2 h
  exact UInt8.toNat_sub_of_le _ _ hle

theorem toNat_sub_ofNat {sp : UInt8} {count : Nat} (h : count ≤ sp.toNat) :
    (sp - UInt8.ofNat count).toNat = sp.toNat - count := by
  have hlt := sp.toNat_lt
  have hcount : (UInt8.ofNat count).toNat = count := by
    rw [UInt8.toNat_ofNat']
    omega
  rw [UInt8.toNat_sub_of_le _ _ (UInt8.le_iff_toNat_le.2 (by rwa [hcount])), hcount]

theorem toNat_pulled_sp {sp : UInt8} {count : Nat} (h : sp.toNat + count ≤ 255) :
    (sp + UInt8.ofNat count).toNat = sp.toNat + count := by
  rw [UInt8.toNat_add, UInt8.toNat_ofNat']
  omega

theorem readUp_sp (sp : UInt8) (count : Nat) :
    (readUp sp count).Ensures fun result => result.2 = sp + UInt8.ofNat count := by
  induction count with
  | zero => simp [readUp, Transaction.Ensures]
  | succ count ih =>
    refine ih.bind fun result hresult value => ?_
    show result.2 + 1 = _
    rw [hresult, UInt8.ofNat_add, UInt8.add_assoc]
    rfl

theorem readUp_writeFree (sp : UInt8) (count : Nat) : (readUp sp count).WriteFree := by
  induction count with
  | zero => trivial
  | succ count ih => exact ih.bind fun result value => trivial

theorem pulled_append (sp : UInt8) (values : List UInt8) (value : UInt8) :
    pulled sp (values ++ [value]) = pulled sp values ++
      [.read (UInt16.ofNat (0x0100 + sp.toNat + 1 + values.length)) value] := by
  rw [pulled, pulled, List.mapIdx_concat]

variable {β : Type} [Bus β]

theorem accesses_writeDown {sp : UInt8} {values : List UInt8} (h : values.length ≤ sp.toNat)
    (bus : β) : (writeDown sp values).accesses bus = pushed sp values := by
  induction values generalizing sp bus with
  | nil => rfl
  | cons value values ih =>
    rw [List.length_cons] at h
    have hsp : (sp - 1).toNat = sp.toNat - 1 := toNat_pushed_sp (by omega)
    have hrest : pushed (sp - 1) values = values.mapIdx fun i value =>
        .write (UInt16.ofNat (0x0100 + sp.toNat - (i + 1))) value := by
      rw [pushed, hsp]
      congr 1
      funext i value
      congr 2
      omega
    rw [pushed, List.mapIdx_cons, ← hrest, Nat.sub_zero, ← stackAddress_eq,
      ← ih (by omega) (Bus.write bus (stackAddress sp) value)]
    rfl

theorem accesses_readUp {sp : UInt8} {count : Nat} (h : sp.toNat + count ≤ 255) (bus : β) :
    (readUp sp count).accesses bus = pulled sp ((readUp sp count).run bus).1.1.toList := by
  induction count with
  | zero => rfl
  | succ count ih =>
    have hsp := (readUp_sp sp count).run bus
    have haddress : stackAddress (sp + UInt8.ofNat count + 1) =
        UInt16.ofNat (0x0100 + sp.toNat + 1 + count) := by
      have hnext : (sp + UInt8.ofNat (count + 1)).toNat = sp.toNat + (count + 1) :=
        toNat_pulled_sp h
      rw [UInt8.ofNat_add, ← UInt8.add_assoc] at hnext
      rw [stackAddress_eq, show (1 : UInt8) = UInt8.ofNat 1 from rfl, hnext]
      congr 1
      omega
    rw [readUp, Transaction.bind_eq, Transaction.accesses_bind, ih (by omega)]
    simp only [Transaction.bind_eq, Transaction.run_bind, Transaction.accesses_bind,
      Transaction.run_readByte, Transaction.accesses_readByte, Transaction.pure_eq,
      Transaction.run_done, Transaction.accesses_done, List.append_nil, hsp, haddress,
      Vector.toList_push, pulled_append, Vector.length_toList]

end Challenger1P
