import Mathlib.Data.BitVec
import Mathlib.Data.Nat.Bitwise
import Mathlib.Logic.Function.Iterate

/-!
# Shift registers with feedback

A register of `w` bits is shifted towards its low end; the bit that falls out
decides whether the taps are added.  The steps are those of a division of
polynomials over two elements, with the register reversed.
-/

namespace ShiftRegister

open Function List

variable {w : Nat} (taps : BitVec w)

def step (reg : BitVec w) : BitVec w := (reg >>> 1) ^^^ (if reg.getLsbD 0 then taps else 0#w)

theorem step_xor (first second : BitVec w) :
    step taps (first ^^^ second) = step taps first ^^^ step taps second := by
  unfold step
  rw [BitVec.ushiftRight_xor_distrib, BitVec.getLsbD_xor]
  refine BitVec.eq_of_getLsbD_eq fun i _ => ?_
  cases first.getLsbD 0 <;> cases second.getLsbD 0 <;>
    simp [BitVec.getLsbD_xor, Bool.xor_comm, Bool.xor_left_comm]

theorem step_zero : step taps 0#w = 0#w := by
  unfold step
  simp

/-- The step loses nothing if the taps have the highest bit. -/
theorem eq_zero_of_step_eq_zero (top : taps.getLsbD (w - 1) = true)
    {reg : BitVec w} (isZero : step taps reg = 0#w) : reg = 0#w := by
  have width : 0 < w := by
    rcases Nat.eq_zero_or_pos w with empty | pos
    · subst empty
      simp at top
    · exact pos
  have bits : ∀ i, (reg.getLsbD (1 + i) ^^
        (if reg.getLsbD 0 then taps else 0#w).getLsbD i) = false := by
    intro i
    have atBit := congrArg (BitVec.getLsbD · i) isZero
    simpa [step, BitVec.getLsbD_xor] using atBit
  have low : reg.getLsbD 0 = false := by
    have atTop := bits (w - 1)
    rw [BitVec.getLsbD_of_ge reg _ (by omega)] at atTop
    cases lowest : reg.getLsbD 0 with
    | false => rfl
    | true =>
      rw [lowest, if_pos rfl, top] at atTop
      cases atTop
  refine BitVec.eq_of_getLsbD_eq fun i _ => ?_
  rw [BitVec.getLsbD_zero]
  cases i with
  | zero => exact low
  | succ i =>
    have above := bits i
    rw [low] at above
    simpa [Nat.add_comm] using above

theorem step_injective (top : taps.getLsbD (w - 1) = true) : Function.Injective (step taps) := by
  intro first second same
  have cancels : step taps (first ^^^ second) = 0#w := by
    rw [step_xor, same, BitVec.xor_self]
  exact BitVec.xor_eq_zero_iff.mp (eq_zero_of_step_eq_zero taps top cancels)

theorem iterate_step_xor (count : Nat) (first second : BitVec w) :
    (step taps)^[count] (first ^^^ second) =
      (step taps)^[count] first ^^^ (step taps)^[count] second := by
  induction count generalizing first second with
  | zero => rfl
  | succ count ih =>
    rw [iterate_succ_apply, step_xor, ih]
    rfl

theorem iterate_step_zero (count : Nat) : (step taps)^[count] 0#w = 0#w :=
  iterate_fixed (step_zero taps) count

theorem iterate_step_ne_zero (top : taps.getLsbD (w - 1) = true)
    (count : Nat) {reg : BitVec w} (notZero : reg ≠ 0#w) : (step taps)^[count] reg ≠ 0#w := by
  intro isZero
  refine notZero ((step_injective taps top).iterate count ?_)
  rw [isZero, iterate_step_zero]

theorem iterate_step_twoPow {place : Nat} (inside : place < w) :
    (step taps)^[place] (BitVec.twoPow w place) = BitVec.twoPow w 0 := by
  induction place with
  | zero => rfl
  | succ place ih =>
    have moved : step taps (BitVec.twoPow w (place + 1)) = BitVec.twoPow w place := by
      unfold step
      refine BitVec.eq_of_getLsbD_eq fun i inRange => ?_
      have notLowest : (BitVec.twoPow w (place + 1)).getLsbD 0 = false := by
        simp
      rw [notLowest]
      simp only [Bool.false_eq_true, if_false, BitVec.xor_zero,
        BitVec.getLsbD_ushiftRight, BitVec.getLsbD_twoPow]
      have same : place + 1 = 1 + i ↔ place = i := by omega
      simp only [inside, same, show place < w by omega]
    rw [iterate_succ_apply, moved]
    exact ih (by omega)

/-! ## Input bit by bit -/

def feed (reg : BitVec w) (bits : List Bool) : BitVec w :=
  bits.foldl (fun reg bit => step taps (reg ^^^ (BitVec.ofBool bit).setWidth w)) reg

theorem step_eq_xor (reg : BitVec w) :
    step taps reg = step taps ((BitVec.ofBool (reg.getLsbD 0)).setWidth w) ^^^ (reg >>> 1) := by
  have lowest : ((BitVec.ofBool (reg.getLsbD 0)).setWidth w).getLsbD 0 = reg.getLsbD 0 := by
    rcases Nat.eq_zero_or_pos w with rfl | pos
    · simp [BitVec.of_length_zero]
    · simp [pos]
  have gone : (BitVec.ofBool (reg.getLsbD 0)).setWidth w >>> 1 = 0#w := by
    refine BitVec.eq_of_getLsbD_eq fun i _ => ?_
    simp [BitVec.getLsbD_setWidth]
  unfold step
  rw [gone, lowest, BitVec.zero_xor, BitVec.xor_comm]

/-- What is added at once may be added bit by bit, each when it is lowest. -/
theorem iterate_step_eq_feed (reg input : BitVec w) (count : Nat) :
    (step taps)^[count] (reg ^^^ input) =
      feed taps reg ((range count).map input.getLsbD) ^^^ (input >>> count) := by
  induction count with
  | zero => simp [feed]
  | succ count ih =>
    have next : feed taps reg ((range (count + 1)).map input.getLsbD) =
        step taps (feed taps reg ((range count).map input.getLsbD) ^^^
          (BitVec.ofBool (input.getLsbD count)).setWidth w) := by
      simp [feed, range_succ]
    have rest := step_eq_xor taps (input >>> count)
    have low : (input >>> count).getLsbD 0 = input.getLsbD count := by
      rw [BitVec.getLsbD_ushiftRight, Nat.add_zero]
    rw [low, ← BitVec.shiftRight_add] at rest
    rw [iterate_succ_apply', ih, next, step_xor, rest, step_xor, BitVec.xor_assoc]

theorem iterate_step_setWidth {k : Nat} (wide : k ≤ w) (reg : BitVec w) (input : BitVec k) :
    (step taps)^[k] (reg ^^^ input.setWidth w) =
      feed taps reg ((range k).map input.getLsbD) := by
  have bits : (input.setWidth w).getLsbD = input.getLsbD := by
    funext i
    rw [BitVec.getLsbD_setWidth]
    by_cases inside : i < k
    · rw [decide_eq_true (by omega), Bool.true_and]
    · rw [BitVec.getLsbD_of_ge input i (by omega), Bool.and_false]
  have gone : input.setWidth w >>> k = 0#w := by
    refine BitVec.eq_of_getLsbD_eq fun i _ => ?_
    rw [BitVec.getLsbD_ushiftRight, bits, BitVec.getLsbD_of_ge input _ (by omega),
      BitVec.getLsbD_zero]
  rw [iterate_step_eq_feed, bits, gone, BitVec.xor_zero]

theorem setWidth_step {n : Nat} (wide : w ≤ n) (reg : BitVec w) :
    (step taps reg).setWidth n = step (taps.setWidth n) (reg.setWidth n) := by
  have lowest : (reg.setWidth n).getLsbD 0 = reg.getLsbD 0 := by
    rcases Nat.eq_zero_or_pos n with rfl | pos
    · obtain rfl : w = 0 := by omega
      simp [BitVec.of_length_zero]
    · simp [pos]
  have half : (reg >>> 1).setWidth n = reg.setWidth n >>> 1 :=
    BitVec.setWidth_ushiftRight wide
  unfold step
  rw [lowest, BitVec.setWidth_xor, half]
  cases reg.getLsbD 0 <;> simp

theorem setWidth_feed {n : Nat} (pos : 0 < w) (wide : w ≤ n) (reg : BitVec w) (bits : List Bool) :
    (feed taps reg bits).setWidth n = feed (taps.setWidth n) (reg.setWidth n) bits := by
  induction bits generalizing reg with
  | nil => rfl
  | cons bit rest ih =>
    have input : ((BitVec.ofBool bit).setWidth w).setWidth n = (BitVec.ofBool bit).setWidth n := by
      refine BitVec.eq_of_getLsbD_eq fun i _ => ?_
      by_cases first : i = 0
      · simp [first, pos]
      · cases bit <;> simp [BitVec.getLsbD_setWidth, first]
    unfold feed at ih ⊢
    rw [foldl_cons, foldl_cons, ih, setWidth_step taps wide, BitVec.setWidth_xor, input]

/-! ## Division -/

/-- The remainder of polynomials over two elements: from the highest place
down, the divisor is added wherever the dividend has a bit. -/
def remainder {n : Nat} (divisor : BitVec n) (degree : Nat) : Nat → BitVec n → BitVec n
  | 0, dividend => dividend
  | place + 1, dividend =>
    remainder divisor degree place
      (if dividend.getLsbD (degree + place) then dividend ^^^ (divisor <<< place) else dividend)


section

variable {n degree width : Nat} {divisor taps : BitVec n}

/-- The taps are the divisor from its second highest coefficient down. -/
def TapsOf (degree : Nat) (divisor taps : BitVec n) : Prop :=
  ∀ i, taps.getLsbD i = (decide (i < degree) && divisor.getLsbD (degree - 1 - i))

/-- One place of the division is one step of the reversed register. -/
theorem reverse_divided (isTaps : TapsOf degree divisor taps) (dividend : BitVec n)
    {place done : Nat} (size : n = degree + place + 1 + done) :
    (if dividend.getLsbD (degree + place) then dividend ^^^ (divisor <<< place)
      else dividend).reverse >>> (done + 1) = step taps (dividend.reverse >>> done) := by
  have lowest : (dividend.reverse >>> done).getLsbD 0 = dividend.getLsbD (degree + place) := by
    rw [BitVec.getLsbD_ushiftRight, BitVec.getLsbD_reverse, BitVec.getMsbD_eq_getLsbD,
      decide_eq_true (by omega), Bool.true_and]
    congr 1
    omega
  unfold step
  rw [lowest, ← BitVec.shiftRight_add]
  refine BitVec.eq_of_getLsbD_eq fun i _ => ?_
  cases dividend.getLsbD (degree + place) with
  | false => simp
  | true =>
    simp only [if_true, BitVec.getLsbD_xor, BitVec.getLsbD_ushiftRight, BitVec.getLsbD_reverse,
      BitVec.getMsbD_eq_getLsbD, BitVec.getLsbD_shiftLeft, isTaps i]
    by_cases inside : i < degree
    · simp [inside, show done + 1 + i < n by omega, show n - 1 - (done + 1 + i) < n by omega,
        show ¬ n - 1 - (done + 1 + i) < place by omega,
        show n - 1 - (done + 1 + i) - place = degree - 1 - i by omega]
    · by_cases held : done + 1 + i < n
      · simp [inside, held, show n - 1 - (done + 1 + i) < place by omega]
      · simp [inside, held]

theorem reverse_remainder (isTaps : TapsOf degree divisor taps) (dividend : BitVec n)
    {place done : Nat} (size : n = degree + place + done) :
    (remainder divisor degree place dividend).reverse >>> (place + done) =
      (step taps)^[place] (dividend.reverse >>> done) := by
  induction place generalizing dividend done with
  | zero => simp [remainder]
  | succ place ih =>
    rw [remainder, iterate_succ_apply, ← reverse_divided isTaps dividend (by omega),
      ← ih _ (by omega)]
    congr 1
    omega

/-- The reversed remainder is what the register of the taps holds after as many
steps as the dividend has places more than the remainder. -/
theorem reverse_setWidth_remainder (isTaps : TapsOf degree divisor taps) (dividend : BitVec n)
    (size : n = degree + width) :
    ((remainder divisor degree width dividend).setWidth degree).reverse =
      ((step taps)^[width] dividend.reverse).setWidth degree := by
  have divided := @reverse_remainder _ _ _ _ isTaps dividend width 0 (by omega)
  rw [Nat.add_zero, BitVec.ushiftRight_zero] at divided
  rw [← divided]
  refine BitVec.eq_of_getLsbD_eq fun i inside => ?_
  simp only [BitVec.getLsbD_reverse, BitVec.getMsbD_eq_getLsbD, BitVec.getLsbD_setWidth,
    BitVec.getLsbD_ushiftRight, inside, show degree - 1 - i < degree by omega,
    show width + i < n by omega, show n - 1 - (width + i) = degree - 1 - i by omega]

end

/-- Each input is added to the register, which is then shifted `width`
times. -/
def absorb (width : Nat) (reg : BitVec w) (input : BitVec w) : BitVec w :=
  (step taps)^[width] (reg ^^^ input)

def absorbAll (width : Nat) (inputs : List (BitVec w)) (reg : BitVec w) : BitVec w :=
  inputs.foldl (absorb taps width) reg

theorem absorbAll_xor (width : Nat) (inputs : List (BitVec w)) (reg change : BitVec w) :
    absorbAll taps width inputs (reg ^^^ change) =
      absorbAll taps width inputs reg ^^^ (step taps)^[width * inputs.length] change := by
  induction inputs generalizing reg change with
  | nil => rfl
  | cons input rest ih =>
    unfold absorbAll at ih ⊢
    have first : absorb taps width (reg ^^^ change) input =
        absorb taps width reg input ^^^ (step taps)^[width] change := by
      unfold absorb
      rw [← iterate_step_xor]
      congr 1
      rw [BitVec.xor_assoc, BitVec.xor_comm change, ← BitVec.xor_assoc]
    rw [foldl_cons, first, ih, foldl_cons,
      ← iterate_add_apply, length_cons, Nat.mul_succ]

/-- A change of one input reaches the end as itself, shifted. -/
theorem absorbAll_modify (width : Nat) (inputs : List (BitVec w))
    {pos : Nat} (inside : pos < inputs.length) (reg change : BitVec w) :
    absorbAll taps width (inputs.modify pos (· ^^^ change)) reg =
      absorbAll taps width inputs reg ^^^
        (step taps)^[width * (inputs.length - pos)] change := by
  induction inputs generalizing pos reg with
  | nil => simp at inside
  | cons input rest ih =>
    cases pos with
    | zero =>
      have first : absorb taps width reg (input ^^^ change) =
          absorb taps width reg input ^^^ (step taps)^[width] change := by
        unfold absorb
        rw [← iterate_step_xor, BitVec.xor_assoc]
      have later := absorbAll_xor taps width rest (absorb taps width reg input)
          ((step taps)^[width] change)
      unfold absorbAll at later ⊢
      rw [modify_zero_cons, foldl_cons, first, later,
        foldl_cons, ← iterate_add_apply, length_cons, Nat.sub_zero, Nat.mul_succ]
    | succ pos =>
      have later := ih (Nat.lt_of_succ_lt_succ inside) (absorb taps width reg input)
      unfold absorbAll at later ⊢
      rw [modify_succ_cons, foldl_cons, later,
        foldl_cons, length_cons, Nat.add_sub_add_right]

def stepNat (taps reg : Nat) : Nat :=
  if reg % 2 = 1 then (reg / 2).xor taps else reg / 2

theorem toNat_step (reg : BitVec w) : (step taps reg).toNat = stepNat taps.toNat reg.toNat := by
  have low : reg.getLsbD 0 = decide (reg.toNat % 2 = 1) := by
    rw [BitVec.getLsbD, Nat.testBit_zero]
  have half : (reg >>> 1).toNat = reg.toNat / 2 := by
    rw [BitVec.toNat_ushiftRight, Nat.shiftRight_one]
  unfold step stepNat
  rw [low]
  by_cases odd : reg.toNat % 2 = 1
  · rw [if_pos odd, if_pos (decide_eq_true odd), BitVec.toNat_xor, half]
    rfl
  · rw [if_neg odd, if_neg (by simpa using odd), BitVec.xor_zero, half]

def stepsNat (taps : Nat) : Nat → Nat → Nat
  | 0, reg => reg
  | count + 1, reg => stepsNat taps count (stepNat taps reg)

theorem toNat_iterate_step (count : Nat) (reg : BitVec w) :
    ((step taps)^[count] reg).toNat = stepsNat taps.toNat count reg.toNat := by
  induction count generalizing reg with
  | zero => rfl
  | succ count ih =>
    rw [iterate_succ_apply, ih, toNat_step]
    rfl

def avoids (taps stride start : Nat) : Nat → Nat → Bool
  | 0, _ => true
  | rounds + 1, reg =>
    let next := stepsNat taps stride reg
    next != start && avoids taps stride start rounds next

theorem avoids_spec {taps stride start rounds reg : Nat}
    (checked : avoids taps stride start rounds reg = true)
    {round : Nat} (pos : 0 < round) (within : round ≤ rounds) :
    (stepsNat taps stride)^[round] reg ≠ start := by
  induction rounds generalizing reg round with
  | zero => omega
  | succ rounds ih =>
    obtain ⟨first, later⟩ := Bool.and_eq_true_iff.mp checked
    cases round with
    | zero => omega
    | succ round =>
      rw [iterate_succ_apply]
      rcases Nat.eq_zero_or_pos round with isFirst | isLater
      · subst isFirst
        exact bne_iff_ne.mp first
      · exact ih later isLater (by omega)

/-- The register does not come back to `start` in the rounds checked. -/
theorem iterate_step_ne_of_avoids {stride rounds : Nat} {reg : BitVec w}
    (checked : avoids taps.toNat stride reg.toNat rounds reg.toNat = true)
    {round : Nat} (pos : 0 < round) (within : round ≤ rounds) :
    (step taps)^[stride * round] reg ≠ reg := by
  intro back
  refine avoids_spec checked pos within ?_
  have numbers : ∀ count, (stepsNat taps.toNat stride)^[count] reg.toNat =
        ((step taps)^[stride * count] reg).toNat := by
    intro count
    induction count with
    | zero => rfl
    | succ count ih =>
      rw [iterate_succ_apply', ih, ← toNat_iterate_step,
        ← iterate_add_apply, Nat.mul_succ, Nat.add_comm]
  rw [numbers, back]

end ShiftRegister
