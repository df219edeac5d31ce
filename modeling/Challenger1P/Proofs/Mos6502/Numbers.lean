import Mathlib.Data.Nat.Digits.Lemmas
import Mathlib.Tactic.Linarith
import Mathlib.Tactic.Ring
import Challenger1P.Proofs.Mos6502.Alu

/-!
# Numbers of several bytes

A program computes with numbers of any length by chains: an instruction works on one byte after the
other, and the carry flag takes what is left over from each to the next. `chain` is such a chain for
any function of the flags and a byte, or several. Lists of bytes are numbers with the low byte first
(`number`), or numbers in two's complement (`signedNumber`).

* `number_chain`: where each link puts what it counts into a byte and the carry, the chain does so
  with the number.
* `computed_addAll`, `computed_subtractAll`: sums and differences, with all flags. A difference is a
  sum with every byte complemented (`subtract_eq_add`).
* `negative_xor_overflow`: how a program compares numbers with signs.
-/

namespace Challenger1P

/-! ## Bytes as a number -/

/-- The number that bytes stand for, the low byte first. -/
def number (bytes : List UInt8) : Nat := Nat.ofDigits 256 (bytes.map UInt8.toNat)

/-- The number that they stand for in two's complement. -/
def signedNumber (bytes : List UInt8) : Int :=
  if 256 ^ bytes.length ≤ 2 * number bytes then number bytes - 256 ^ bytes.length
  else number bytes

@[simp] theorem number_nil : number [] = 0 := rfl

theorem number_cons (low : UInt8) (bytes : List UInt8) :
    number (low :: bytes) = low.toNat + 256 * number bytes := Nat.ofDigits_cons

theorem number_append (low high : List UInt8) :
    number (low ++ high) = number low + 256 ^ low.length * number high := by
  rw [number, List.map_append, Nat.ofDigits_append, List.length_map]
  rfl

theorem number_concat (low : List UInt8) (high : UInt8) :
    number (low ++ [high]) = number low + 256 ^ low.length * high.toNat := by
  rw [number_append, number_cons, number_nil, Nat.mul_zero, Nat.add_zero]

theorem digit_lt (bytes : List UInt8) : ∀ digit ∈ bytes.map UInt8.toNat, digit < 256 := by
  intro digit hdigit
  obtain ⟨value, -, rfl⟩ := List.mem_map.1 hdigit
  exact value.toNat_lt

theorem number_lt (bytes : List UInt8) : number bytes < 256 ^ bytes.length := by
  simpa only [number, List.length_map] using
    Nat.ofDigits_lt_base_pow_length (by decide) (digit_lt bytes)

theorem eq_of_number_eq {xs ys : List UInt8} (hlength : xs.length = ys.length)
    (h : number xs = number ys) : xs = ys := by
  refine (List.map_injective_iff.2 fun _ _ => UInt8.toNat_inj.1)
    (Nat.ofDigits_inj_of_len_eq (b := 256) (by decide) ?_ (digit_lt xs) (digit_lt ys) h)
  rw [List.length_map, List.length_map, hlength]

/-- The high byte has the sign. -/
theorem signedNumber_concat (low : List UInt8) (high : UInt8) :
    signedNumber (low ++ [high]) = number low + 256 ^ low.length * signed high := by
  have hlow := number_lt low
  have hlength : (low ++ [high]).length = low.length + 1 := List.length_append
  rw [signedNumber, signed, number_concat, hlength, pow_succ]
  by_cases hhigh : 128 ≤ high.toNat
  · have := Nat.mul_le_mul_left (256 ^ low.length) hhigh
    rw [if_pos (by omega), if_pos hhigh]
    push_cast
    ring
  · have := Nat.mul_le_mul_left (256 ^ low.length) (show high.toNat + 1 ≤ 128 by omega)
    rw [Nat.mul_succ] at this
    rw [if_neg (by omega), if_neg hhigh]
    push_cast
    rfl

/-- The top bit of a number is that of its high byte. -/
theorem testBit_number_concat (low : List UInt8) (high : UInt8) :
    (number (low ++ [high])).testBit (8 * (low.length + 1) - 1) = bitOf high 7 := by
  have hlow := number_lt low
  have hpow : 256 ^ low.length = 2 ^ (8 * low.length) := by rw [pow_mul]; rfl
  rw [hpow] at hlow
  rw [number_concat, hpow, Nat.add_comm, Nat.testBit_two_pow_mul_add _ hlow, if_neg (by omega),
    bitOf]
  congr 1
  omega

/-- The top bit of a number that fits into `n` bytes is set in the upper half of those numbers. -/
theorem testBit_top {n value : Nat} (hpos : 0 < n) (h : value < 256 ^ n) :
    value.testBit (8 * n - 1) = decide (256 ^ n ≤ 2 * value) := by
  -- the top bit counts half of `256 ^ n`
  have hhalf : 256 ^ n = 2 * 2 ^ (8 * n - 1) := by
    rw [← pow_succ', show 8 * n - 1 + 1 = 8 * n by omega, pow_mul]
    rfl
  have htop : 0 < 2 ^ (8 * n - 1) := Nat.two_pow_pos _
  rw [hhalf] at h ⊢
  rw [Nat.testBit_eq_decide_div_mod_eq, decide_eq_decide]
  generalize 2 ^ (8 * n - 1) = half at *
  rcases Nat.lt_or_ge value half with hlow | hhigh
  · rw [Nat.div_eq_of_lt hlow]
    omega
  · rw [Nat.div_eq_of_lt_le (k := 1) (by omega) (by omega)]
    omega

theorem signedNumber_range (bytes : List UInt8) :
    -256 ^ bytes.length ≤ 2 * signedNumber bytes ∧ 2 * signedNumber bytes < 256 ^ bytes.length := by
  have hlt := number_lt bytes
  rw [signedNumber]
  zify at hlt ⊢
  split <;> constructor <;> omega

theorem number_modEq (bytes : List UInt8) :
    (number bytes : Int) ≡ signedNumber bytes [ZMOD 256 ^ bytes.length] := by
  rw [signedNumber]
  split
  · exact (Int.sub_emod_right _ _).symm
  · rfl

/-! ## Chains -/

section Chain

variable {α : Type} (step : Flags → α → UInt8 × Flags) (f : Flags)

/-- One item after the other, with the flags that the ones before it leave: the results, and the
flags after the last. -/
def chain (f : Flags) : List α → List UInt8 × Flags
  | [] => ([], f)
  | item :: rest =>
    let link := step f item
    let others := chain link.2 rest
    (link.1 :: others.1, others.2)

theorem chain_cons (item : α) (rest : List α) :
    chain step f (item :: rest) =
      ((step f item).1 :: (chain step (step f item).2 rest).1,
        (chain step (step f item).2 rest).2) := rfl

theorem chain_concat (items : List α) (last : α) :
    chain step f (items ++ [last]) =
      ((chain step f items).1 ++ [(step (chain step f items).2 last).1],
        (step (chain step f items).2 last).2) := by
  induction items generalizing f with
  | nil => rfl
  | cons item rest ih => rw [List.cons_append, chain_cons, ih, chain_cons, List.cons_append]

theorem chain_map {γ : Type} (g : γ → α) (items : List γ) :
    chain step f (items.map g) = chain (fun f item => step f (g item)) f items := by
  induction items generalizing f with
  | nil => rfl
  | cons item rest ih => rw [List.map_cons, chain_cons, chain_cons, ih]

@[simp] theorem length_chain (items : List α) : (chain step f items).1.length = items.length := by
  induction items generalizing f with
  | nil => rfl
  | cons item rest ih => rw [chain_cons, List.length_cons, List.length_cons, ih]

variable {step f}

/-- What no link changes, a chain does not change. -/
theorem chain_keeps {P : Flags → Prop} (hstep : ∀ f item, P f → P (step f item).2) (h : P f)
    (items : List α) : P (chain step f items).2 := by
  induction items generalizing f with
  | nil => exact h
  | cons item rest ih => exact ih (hstep f item h)

/-- Where each link puts what it counts, and the carry before it, into a byte and the carry after
it, a chain does so with the whole. -/
theorem number_chain (count : α → Nat)
    (hstep : ∀ f item, (step f item).1.toNat + 256 * (step f item).2.carry.toNat =
      count item + f.carry.toNat) (f : Flags) (items : List α) :
    number (chain step f items).1 + 256 ^ items.length * (chain step f items).2.carry.toNat =
      Nat.ofDigits 256 (items.map count) + f.carry.toNat := by
  induction items generalizing f with
  | nil => simp [chain]
  | cons item rest ih =>
    have hlink := hstep f item
    have hrest := ih (step f item).2
    rw [chain_cons, number_cons, List.map_cons, Nat.ofDigits_cons, List.length_cons, pow_succ]
    linarith

end Chain

namespace Alu

/-- Add numbers of several bytes. -/
def addAll (f : Flags) (xs ys : List UInt8) : List UInt8 × Flags :=
  chain (fun f (pair : UInt8 × UInt8) => add f pair.1 pair.2) f (xs.zip ys)

/-- Subtract numbers of several bytes. -/
def subtractAll (f : Flags) (xs ys : List UInt8) : List UInt8 × Flags :=
  chain (fun f (pair : UInt8 × UInt8) => subtract f pair.1 pair.2) f (xs.zip ys)

variable (f : Flags) (a m : UInt8)

theorem toNat_add :
    (add f a m).1.toNat + 256 * (add f a m).2.carry.toNat =
      a.toNat + m.toNat + f.carry.toNat := by
  have ha := a.toNat_lt
  have hm := m.toNat_lt
  have hc := f.carry.toNat_le
  have hvalue : (add f a m).1.toNat = (a.toNat + m.toNat + f.carry.toNat) % 256 := by
    rw [← toNat_sum]
    exact UInt16.toNat_toUInt8 _
  have hcarry : (add f a m).2.carry = decide (256 ≤ a.toNat + m.toNat + f.carry.toNat) :=
    decide_eq_decide.2 (le_sum_iff f a m)
  rw [hvalue, hcarry]
  by_cases h : 256 ≤ a.toNat + m.toNat + f.carry.toNat
  · rw [decide_eq_true h, Bool.toNat_true]
    omega
  · rw [decide_eq_false h, Bool.toNat_false]
    omega

theorem toNat_complement : (~~~m).toNat = 255 - m.toNat := by
  have := m.toNat_lt
  have hsize : UInt8.size = 256 := rfl
  rw [UInt8.toNat_not]
  omega

theorem signed_complement : signed (~~~m) = -1 - signed m := by
  have := m.toNat_lt
  rw [signed, signed, toNat_complement]
  split <;> split <;> omega

/-- A difference is a sum with the complement. -/
theorem subtract_eq_add : subtract f a m = add f a (~~~m) := by
  have hm := m.toNat_lt
  have hcomplement := toNat_complement m
  have hsigned := signed_complement m
  have hbyte : byte (a.toNat - m.toNat - (1 - f.carry.toNat)) =
      byte (a.toNat + (~~~m).toNat + f.carry.toNat) := by
    refine eq_byte ?_
    rw [toNat_byte]
    omega
  have hcarry : decide ((0 : Int) ≤ a.toNat - m.toNat - (1 - f.carry.toNat)) =
      decide ((256 : Int) ≤ a.toNat + (~~~m).toNat + f.carry.toNat) := by
    rw [decide_eq_decide]
    omega
  have hoverflow : signed a - signed m - (1 - f.carry.toNat) =
      signed a + signed (~~~m) + f.carry.toNat := by
    omega
  rw [subtract_eq, add_eq, hbyte, hcarry, hoverflow]

/-! ## The whole -/

/-- The `n` bytes that a chain leaves are those of `total`, and the flags after it are those of the
whole number: overflow is set if `signedTotal` has no room in `n` bytes with a sign. Zero is the
exception. It goes by the high byte alone. -/
structure Computed (n : Nat) (before : Flags) (total signedTotal : Int) (carry : Bool)
    (result : List UInt8 × Flags) : Prop where
  length_eq : result.1.length = n
  number_eq : (number result.1 : Int) = total % 256 ^ n
  flags_eq : result.2 = { before with
    carry := carry
    zero := result.1.getLast? = some 0
    overflow := 2 * signedTotal < -256 ^ n || 256 ^ n ≤ 2 * signedTotal
    negative := (number result.1).testBit (8 * n - 1) }

/-- Arithmetic leaves alone the flags that are not about numbers. -/
theorem addAll_keeps (xs ys : List UInt8) :
    (addAll f xs ys).2 = { f with
      carry := (addAll f xs ys).2.carry
      zero := (addAll f xs ys).2.zero
      overflow := (addAll f xs ys).2.overflow
      negative := (addAll f xs ys).2.negative } := by
  refine chain_keeps (P := fun g => g = { f with
    carry := g.carry, zero := g.zero, overflow := g.overflow, negative := g.negative }) ?_ rfl _
  rintro g ⟨a, m⟩ h
  rw [h]
  rfl

theorem addAll_concat {xs ys : List UInt8} (hlength : xs.length = ys.length) (x y : UInt8) :
    addAll f (xs ++ [x]) (ys ++ [y]) =
      ((addAll f xs ys).1 ++ [(add (addAll f xs ys).2 x y).1], (add (addAll f xs ys).2 x y).2) := by
  rw [addAll, List.zip_append hlength]
  exact chain_concat _ _ _ _

variable {f} in
theorem length_addAll {xs ys : List UInt8} (hlength : xs.length = ys.length) :
    (addAll f xs ys).1.length = xs.length := by
  rw [addAll, length_chain, List.length_zip, ← hlength, Nat.min_self]

variable {f} in
theorem number_addAll_lt {xs ys : List UInt8} (hlength : xs.length = ys.length) :
    number (addAll f xs ys).1 < 256 ^ xs.length := length_addAll hlength ▸ number_lt _

theorem number_addAll {xs ys : List UInt8} (hlength : xs.length = ys.length) :
    number (addAll f xs ys).1 + 256 ^ xs.length * (addAll f xs ys).2.carry.toNat =
      number xs + number ys + f.carry.toNat := by
  have hcount := number_chain (fun pair : UInt8 × UInt8 => pair.1.toNat + pair.2.toNat)
    (fun f pair => toNat_add f pair.1 pair.2) f (xs.zip ys)
  have hsum : (xs.zip ys).map (fun pair => pair.1.toNat + pair.2.toNat) =
      List.zipWith (· + ·) (xs.map UInt8.toNat) (ys.map UInt8.toNat) := by
    rw [List.zipWith_map, List.map_zip_eq_zipWith]
    rfl
  rw [hsum, ← Nat.ofDigits_add_ofDigits_eq_ofDigits_zipWith_of_length_eq
    (by rw [List.length_map, List.length_map, hlength])] at hcount
  rw [List.length_zip, ← hlength, Nat.min_self] at hcount
  exact hcount

/-- The high bytes alone settle whether a sum of signed numbers has room: what comes from the bytes
below them is less than one of theirs. -/
theorem overflows_iff {below size : Nat} (h : below < size) (high : Int) :
    (decide (2 * (below + size * high) < -(size * 256 : Int)) ||
      decide ((size * 256 : Int) ≤ 2 * (below + size * high))) = overflows high := by
  have hbelow : (below : Int) + 1 ≤ size := by exact_mod_cast h
  rw [overflows]
  congr 1
  · rw [decide_eq_decide]
    constructor
    · intro hless
      by_contra hhigh
      nlinarith
    · intro hhigh
      nlinarith
  · rw [decide_eq_decide]
    constructor
    · intro hmore
      by_contra hhigh
      nlinarith
    · intro hhigh
      nlinarith

/-- What a sum of signed numbers is made of: the bytes below the high ones leave a carry. -/
theorem signedNumber_addAll {xs ys : List UInt8} (hlength : xs.length = ys.length) (x y : UInt8) :
    signedNumber (xs ++ [x]) + signedNumber (ys ++ [y]) + f.carry.toNat =
      number (addAll f xs ys).1 +
        256 ^ xs.length * (signed x + signed y + (addAll f xs ys).2.carry.toNat) := by
  have hbelow := number_addAll f hlength
  zify at hbelow
  rw [signedNumber_concat, signedNumber_concat, ← hlength]
  linarith

/-- The flags of a sum are those of its high byte. -/
theorem flags_addAll_concat {xs ys : List UInt8} (hlength : xs.length = ys.length) (x y : UInt8)
    {out : List UInt8} (hout : (addAll f (xs ++ [x]) (ys ++ [y])).1 = out) :
    (addAll f (xs ++ [x]) (ys ++ [y])).2 = { f with
      carry := (addAll f (xs ++ [x]) (ys ++ [y])).2.carry
      zero := out.getLast? = some 0
      overflow := overflows (signed x + signed y + (addAll f xs ys).2.carry.toNat)
      negative := (number out).testBit (8 * (xs.length + 1) - 1) } := by
  have hbelow := length_addAll (f := f) hlength
  have hkept := addAll_keeps f xs ys
  -- the last link sets the flags, on top of what those before it have kept
  rw [addAll_concat f hlength] at hout ⊢
  subst hout
  dsimp only
  generalize addAll f xs ys = below at *
  rw [List.getLast?_concat, ← hbelow, testBit_number_concat, hkept, add_eq]
  simp only [Flags.judgedBy, Option.some.injEq, ← UInt8.toNat_inj]
  rfl

theorem computed_addAll {xs ys : List UInt8} (hlength : xs.length = ys.length)
    (hpos : 0 < xs.length) :
    Computed xs.length f (number xs + number ys + f.carry.toNat)
      (signedNumber xs + signedNumber ys + f.carry.toNat)
      (decide (256 ^ xs.length ≤ number xs + number ys + f.carry.toNat)) (addAll f xs ys) := by
  have hsum := number_addAll f hlength
  have hfits := number_addAll_lt (f := f) hlength
  have hcarry : (addAll f xs ys).2.carry =
      decide (256 ^ xs.length ≤ number xs + number ys + f.carry.toNat) := by
    rw [← hsum]
    cases (addAll f xs ys).2.carry <;> simp [hfits]
  refine ⟨length_addAll hlength, ?_, ?_⟩
  · have hmod : number (addAll f xs ys).1 =
        (number xs + number ys + f.carry.toNat) % 256 ^ xs.length := by
      rw [← hsum, Nat.add_mul_mod_self_left, Nat.mod_eq_of_lt hfits]
    rw [hmod]
    push_cast
    rfl
  · rw [← hcarry]
    obtain rfl | ⟨low, x, rfl⟩ := xs.eq_nil_or_concat'
    · cases hpos
    obtain rfl | ⟨low', y, rfl⟩ := ys.eq_nil_or_concat'
    · simp at hlength
    have hlow : low.length = low'.length := by simpa using hlength
    rw [flags_addAll_concat f hlow x y rfl, signedNumber_addAll f hlow,
      ← overflows_iff (number_addAll_lt hlow)]
    simp only [List.length_append, List.length_singleton, pow_succ]
    push_cast
    rfl

/-! ## Differences -/

theorem number_complement (ys : List UInt8) :
    number (ys.map (~~~ ·)) + number ys + 1 = 256 ^ ys.length := by
  induction ys with
  | nil => rfl
  | cons y ys ih =>
    have := y.toNat_lt
    rw [List.map_cons, number_cons, number_cons, toNat_complement, List.length_cons, pow_succ]
    omega

theorem signedNumber_complement {ys : List UInt8} (hpos : 0 < ys.length) :
    signedNumber (ys.map (~~~ ·)) = -1 - signedNumber ys := by
  obtain rfl | ⟨low, y, rfl⟩ := ys.eq_nil_or_concat'
  · cases hpos
  · have hlow := number_complement low
    zify at hlow
    rw [List.map_append, List.map_singleton, signedNumber_concat, signedNumber_concat,
      List.length_map, signed_complement]
    linarith

theorem subtractAll_eq_addAll (xs ys : List UInt8) :
    subtractAll f xs ys = addAll f xs (ys.map (~~~ ·)) := by
  rw [addAll, List.zip_map_right, chain_map, subtractAll]
  simp only [subtract_eq_add]
  rfl

theorem computed_subtractAll {xs ys : List UInt8} (hlength : xs.length = ys.length)
    (hpos : 0 < xs.length) :
    Computed xs.length f (number xs - number ys - (1 - f.carry.toNat))
      (signedNumber xs - signedNumber ys - (1 - f.carry.toNat))
      (decide (number ys + (1 - f.carry.toNat) ≤ number xs)) (subtractAll f xs ys) := by
  have hc := f.carry.toNat_le
  have hcomplement := number_complement ys
  rw [← hlength] at hcomplement
  have hmap : xs.length = (ys.map (~~~ ·)).length := by rw [List.length_map, hlength]
  have hsum := computed_addAll f hmap hpos
  have htotal : (number xs + number (ys.map (~~~ ·)) + f.carry.toNat : Int) =
      number xs - number ys - (1 - f.carry.toNat) + 256 ^ xs.length := by
    zify at hcomplement
    linarith
  have hsigned : signedNumber xs + signedNumber (ys.map (~~~ ·)) + f.carry.toNat =
      signedNumber xs - signedNumber ys - (1 - f.carry.toNat) := by
    rw [signedNumber_complement (hlength ▸ hpos)]
    ring
  have hcarry : decide (256 ^ xs.length ≤
      number xs + number (ys.map (~~~ ·)) + f.carry.toNat) =
        decide (number ys + (1 - f.carry.toNat) ≤ number xs) := by
    rw [decide_eq_decide]
    omega
  rw [htotal, hsigned, hcarry, ← subtractAll_eq_addAll] at hsum
  exact ⟨hsum.length_eq, by rw [hsum.number_eq, Int.add_emod_right], hsum.flags_eq⟩

/-- A difference that is less than zero either has room, and its remainder is in the upper half, or
it has not, and its remainder is in the lower half. One that is not is the other way round. -/
theorem xor_of_emod {size difference remainder : Int} (h : remainder = difference % size)
    (hmin : -size < difference) (hmax : difference < size) :
    (decide (size ≤ 2 * remainder) ^^
      (decide (2 * difference < -size) || decide (size ≤ 2 * difference))) =
        decide (difference < 0) := by
  rw [Bool.eq_iff_iff, Bool.xor_iff_ne, ne_eq, Bool.eq_iff_iff, Bool.or_eq_true]
  simp only [decide_eq_true_eq]
  -- the remainder is the difference, or one `size` more where that is negative
  rcases Int.lt_or_le difference 0 with hless | hnot
  · rw [← Int.add_emod_right, Int.emod_eq_of_lt (by omega) (by omega)] at h
    omega
  · rw [Int.emod_eq_of_lt hnot hmax] at h
    omega

/-- After a comparison of signed numbers, negative and overflow differ if the first is less. -/
theorem negative_xor_overflow {xs ys : List UInt8} (hlength : xs.length = ys.length)
    (hpos : 0 < xs.length) (hcarry : f.carry = true) :
    ((subtractAll f xs ys).2.negative ^^ (subtractAll f xs ys).2.overflow) =
      decide (signedNumber xs < signedNumber ys) := by
  have hdifference := computed_subtractAll f hlength hpos
  rw [hcarry, Bool.toNat_true, Nat.cast_one, sub_self, sub_zero, sub_zero] at hdifference
  have hfits := number_lt (subtractAll f xs ys).1
  rw [hdifference.length_eq] at hfits
  have hxs := signedNumber_range xs
  have hys := signedNumber_range ys
  rw [← hlength] at hys
  have hmod : (number (subtractAll f xs ys).1 : Int) =
      (signedNumber xs - signedNumber ys) % 256 ^ xs.length :=
    hdifference.number_eq.trans ((number_modEq xs).sub (hlength ▸ number_modEq ys))
  have hnegative : (number (subtractAll f xs ys).1).testBit (8 * xs.length - 1) =
      decide ((256 ^ xs.length : Int) ≤ 2 * number (subtractAll f xs ys).1) := by
    rw [testBit_top hpos hfits, decide_eq_decide]
    norm_cast
  rw [hdifference.flags_eq]
  dsimp only
  rw [hnegative, xor_of_emod hmod (by omega) (by omega), decide_eq_decide]
  omega

/-- Chains of additions and subtractions, from the low byte to the high one, are exact on numbers of
any length, with signs and without. After a subtraction that starts without a borrow, negative and
overflow together compare the numbers with their signs. -/
theorem byte_chains_are_exact (xs ys : List UInt8) (hlength : xs.length = ys.length)
    (hpos : 0 < xs.length) (f : Flags) :
    Computed xs.length f (number xs + number ys + f.carry.toNat)
        (signedNumber xs + signedNumber ys + f.carry.toNat)
        (decide (256 ^ xs.length ≤ number xs + number ys + f.carry.toNat)) (addAll f xs ys) ∧
      Computed xs.length f (number xs - number ys - (1 - f.carry.toNat))
        (signedNumber xs - signedNumber ys - (1 - f.carry.toNat))
        (decide (number ys + (1 - f.carry.toNat) ≤ number xs)) (subtractAll f xs ys) ∧
      (f.carry = true →
        ((subtractAll f xs ys).2.negative ^^ (subtractAll f xs ys).2.overflow) =
          decide (signedNumber xs < signedNumber ys)) :=
  ⟨computed_addAll f hlength hpos, computed_subtractAll f hlength hpos,
    negative_xor_overflow f hlength hpos⟩

/-- The least number of two bytes, and one: the sum has room, the difference has not, and the flags
still say which one is less. -/
theorem byte_chains_are_exact_at_the_limit :
    let xs : List UInt8 := [0x00, 0x80]
    let ys : List UInt8 := [0x01, 0x00]
    let f : Flags := { carry := true, decimal := true }
    (xs.length = ys.length ∧ 0 < xs.length) ∧
      (number (addAll f xs ys).1 : Int) = 0x8002 ∧ (addAll f xs ys).2.overflow = false ∧
      (number (subtractAll f xs ys).1 : Int) = 0x7FFF ∧ (subtractAll f xs ys).2.overflow = true ∧
      ((subtractAll f xs ys).2.negative ^^ (subtractAll f xs ys).2.overflow) = true := by
  intro xs ys f
  obtain ⟨hsum, hdifference, hless⟩ := byte_chains_are_exact xs ys rfl (by decide) f
  refine ⟨⟨rfl, by decide⟩, hsum.number_eq.trans (by decide), ?_,
    hdifference.number_eq.trans (by decide), ?_, (hless rfl).trans (by decide)⟩
  · rw [hsum.flags_eq]
    decide
  · rw [hdifference.flags_eq]
    decide

end Alu

end Challenger1P
