import BoardDesign.Text.Hex
import Mathlib.Data.List.Basic
import Mathlib.Data.Nat.Digits.Defs

/-!
# Numbers read back from hexadecimal digits

* `toNat?_ofNat`: a number is read back from its digits, whatever zeros stand before them;
* `isSome_value?_of_go`, `exists_digit_of_mem`: nothing but digits is read as a number, and numbers
  are written with nothing else;
* `Writes`, `toNat?_eq_some_iff`: the number that digits write in base 16 is the one that is read.
-/

namespace BoardDesign.Text.Hex

theorem go_append (acc : Nat) (xs ys : List Char) :
    toNat?.go acc (xs ++ ys) = (toNat?.go acc xs).bind fun n => toNat?.go n ys := by
  induction xs generalizing acc with
  | nil => rfl
  | cons c rest ih =>
    rw [List.cons_append, toNat?.go, toNat?.go]
    cases value? c with
    | none => rfl
    | some v => exact ih _

/-- Only digits are read as a number. -/
theorem isSome_value?_of_go {acc n : Nat} {cs : List Char} (read : toNat?.go acc cs = some n) :
    ∀ c ∈ cs, (value? c).isSome := by
  induction cs generalizing acc with
  | nil => exact nofun
  | cons c rest ih =>
    rw [toNat?.go] at read
    split at read
    · rename_i v digit
      exact List.forall_mem_cons.mpr ⟨by rw [digit]; rfl, ih read⟩
    · cases read

theorem go_digit (acc : Nat) {n : Nat} (h : n < 16) :
    toNat?.go acc [digit n] = some (acc * 16 + n) := by
  simp [toNat?.go, value?_digit h]

theorem toNat?_ofNat_go (fuel n : Nat) (enough : n ≤ fuel) :
    toNat? (ofNat.go fuel n) = some n := by
  induction fuel generalizing n with
  | zero =>
    obtain rfl : n = 0 := by omega
    exact go_digit 0 (by decide)
  | succ fuel ih =>
    rw [ofNat.go]
    split
    · rename_i small
      rw [toNat?, go_digit 0 small, Nat.zero_mul, Nat.zero_add]
    · have quotient := ih (n / 16) (by omega)
      rw [toNat?] at quotient ⊢
      rw [go_append, quotient, Option.bind_some, go_digit _ (Nat.mod_lt _ (by decide))]
      congr 1
      omega

theorem toNat?_ofNat (n : Nat) : toNat? (ofNat n) = some n := toNat?_ofNat_go n n (Nat.le_refl n)

theorem toNat?_zeros (k : Nat) (cs : List Char) :
    toNat? (List.replicate k '0' ++ cs) = toNat? cs := by
  induction k with
  | zero => rfl
  | succ k ih =>
    rw [List.replicate_succ, List.cons_append]
    exact ih

theorem exists_digit_of_mem {n : Nat} {c : Char} (mem : c ∈ ofNat n) :
    ∃ k, k < 16 ∧ c = digit k := by
  have all : ∀ fuel n, ∀ c ∈ ofNat.go fuel n, ∃ k, k < 16 ∧ c = digit k := by
    intro fuel
    induction fuel with
    | zero =>
      intro n c mem
      exact ⟨n % 16, Nat.mod_lt _ (by decide), List.mem_singleton.mp mem⟩
    | succ fuel ih =>
      intro n c mem
      rw [ofNat.go] at mem
      split at mem
      · rename_i small
        exact ⟨n, small, List.mem_singleton.mp mem⟩
      · rcases List.mem_append.mp mem with mem | mem
        · exact ih _ c mem
        · exact ⟨n % 16, Nat.mod_lt _ (by decide), List.mem_singleton.mp mem⟩
  exact all n n c mem

/-! ## What digits write -/

def lowerDigits : List Char := "0123456789abcdef".toList

def upperDigits : List Char := "0123456789ABCDEF".toList

/-- The character is the digit of a number below 16. -/
def Stands (c : Char) (n : Nat) : Prop := lowerDigits[n]? = some c ∨ upperDigits[n]? = some c

theorem value?_of_stands {c : Char} {n : Nat} (h : Stands c n) : value? c = some n := by
  have all : ∀ m : Fin 16, (lowerDigits[m.val]?.bind value?) = some m.val ∧
      (upperDigits[m.val]?.bind value?) = some m.val := by decide
  have small : n < 16 := by
    by_contra large
    have beyond : lowerDigits[n]? = none ∧ upperDigits[n]? = none :=
      ⟨List.getElem?_eq_none (Nat.not_lt.mp large), List.getElem?_eq_none (Nat.not_lt.mp large)⟩
    simp [Stands, beyond] at h
  obtain ⟨lower, upper⟩ := all ⟨n, small⟩
  rcases h with found | found
  · simpa [found] using lower
  · simpa [found] using upper

theorem stands_of_value? {c : Char} {n : Nat} (h : value? c = some n) : Stands c n := by
  have all : ∀ k : Fin 103, (value? (Char.ofNat k.val)).all fun n =>
      lowerDigits[n]? = some (Char.ofNat k.val) ∨ upperDigits[n]? = some (Char.ofNat k.val) := by
    decide
  have small : c.toNat < 103 := by
    have bound (d : Char) (le : c ≤ d) (d_small : d.toNat < 103) : c.toNat < 103 :=
      Nat.lt_of_le_of_lt (show c.toNat ≤ d.toNat from le) d_small
    unfold value? at h
    split at h
    · rename_i within
      simp only [Bool.and_eq_true, decide_eq_true_eq] at within
      exact bound '9' within.2 (by decide)
    · split at h
      · rename_i within
        simp only [Bool.and_eq_true, decide_eq_true_eq] at within
        exact bound 'f' within.2 (by decide)
      · split at h
        · rename_i within
          simp only [Bool.and_eq_true, decide_eq_true_eq] at within
          exact bound 'F' within.2 (by decide)
        · cases h
  have here := all ⟨c.toNat, small⟩
  simpa only [Stands, Char.ofNat_toNat, h, Option.all_some, decide_eq_true_eq] using here

theorem value?_eq_some_iff {c : Char} {n : Nat} : value? c = some n ↔ Stands c n :=
  ⟨stands_of_value?, value?_of_stands⟩

/-- The digits write the number in base 16. -/
def Writes (cs : List Char) (v : Nat) : Prop :=
  ∃ ns, List.Forall₂ Stands cs ns ∧ Nat.ofDigits 16 ns.reverse = v

theorem go_eq_some_iff {acc v : Nat} {cs : List Char} : toNat?.go acc cs = some v ↔
    ∃ ns, List.Forall₂ Stands cs ns ∧ acc * 16 ^ ns.length + Nat.ofDigits 16 ns.reverse = v := by
  induction cs generalizing acc with
  | nil =>
    rw [toNat?.go, Option.some.injEq]
    constructor
    · rintro rfl
      exact ⟨[], .nil, by simp⟩
    · rintro ⟨_, ⟨⟩, rfl⟩
      simp
  | cons c rest ih =>
    have step (n : Nat) (ns : List Nat) :
        acc * 16 ^ (n :: ns).length + Nat.ofDigits 16 (n :: ns).reverse =
          (acc * 16 + n) * 16 ^ ns.length + Nat.ofDigits 16 ns.reverse := by
      rw [List.reverse_cons, Nat.ofDigits_append, Nat.ofDigits_singleton, List.length_reverse,
        List.length_cons, Nat.pow_succ]
      ring
    rw [toNat?.go]
    constructor
    · intro read
      split at read
      · rename_i n digit
        obtain ⟨ns, stand, rfl⟩ := ih.mp read
        exact ⟨n :: ns, .cons (value?_eq_some_iff.mp digit) stand, step n ns⟩
      · cases read
    · rintro ⟨_, _ | ⟨stands, rest_stand⟩, rfl⟩
      rename_i n ns
      rw [value?_eq_some_iff.mpr stands]
      exact ih.mpr ⟨ns, rest_stand, (step n ns).symm⟩

/-- A number is read just from the digits that write it. -/
theorem toNat?_eq_some_iff {cs : List Char} {v : Nat} : toNat? cs = some v ↔ Writes cs v := by
  simp [toNat?, go_eq_some_iff, Writes]

end BoardDesign.Text.Hex
