import Mathlib.Data.List.Basic

/-! Bytes as bits, most significant bit first, and their comparison under a mask of
leading ones. -/
namespace LeadingBits

def bit (b : UInt8) (i : Nat) : Bool := b.toBitVec.getLsbD i

def byteBits (b : UInt8) : List Bool := (List.range 8).map fun i => bit b (7 - i)

def bits (bytes : List UInt8) : List Bool := bytes.flatMap byteBits

@[simp] theorem length_byteBits (b : UInt8) : (byteBits b).length = 8 := by simp [byteBits]

@[simp] theorem length_bits (bytes : List UInt8) : (bits bytes).length = 8 * bytes.length := by
  induction bytes with
  | nil => rfl
  | cons b rest ih => simp only [bits,List.flatMap_cons,List.length_append,length_byteBits,List.length_cons] at ih ⊢; omega

@[simp] theorem bits_append (left right : List UInt8) : bits (left ++ right) = bits left ++ bits right :=
  List.flatMap_append

theorem eq_iff_bit (a b : UInt8) : a = b ↔ ∀ i < 8, bit a i = bit b i := by
  rw [← UInt8.toBitVec_inj]
  constructor
  · intro same i _
    rw [bit,bit,same]
  · exact BitVec.eq_of_getLsbD_eq

/-- A byte of a mask that has `n` ones left to place. -/
def byteMask (n : Nat) : UInt8 := if n ≥ 8 then 0xff else ~~~((0xff : UInt8) >>> n.toUInt8)

theorem bit_byteMask (n i : Nat) (inside : i < 8) : bit (byteMask n) i = decide (8 ≤ i + n) := by
  have small : ∀ n < 8, ∀ i < 8, bit (byteMask n) i = decide (8 ≤ i + n) := by decide
  by_cases few : n < 8
  · exact small n few i inside
  · have all : ∀ i < 8, bit 0xff i = true := by decide
    rw [byteMask,if_pos (by omega),all i inside]
    simp only [Bool.true_eq,decide_eq_true_eq]
    omega

theorem masked_iff (n : Nat) (a b : UInt8) :
    a &&& byteMask n = b &&& byteMask n ↔ (byteBits a).take n = (byteBits b).take n := by
  have conj : ∀ c : UInt8, ∀ i, bit (c &&& byteMask n) i = (bit c i && bit (byteMask n) i) := by
    intro c i
    simp [bit]
  rw [eq_iff_bit,byteBits,byteBits,← List.map_take,← List.map_take,List.take_range,List.map_inj_left]
  simp only [List.mem_range,conj]
  constructor
  · intro agree j inside
    have here := agree (7 - j) (by omega)
    rw [bit_byteMask n (7 - j) (by omega),decide_eq_true (by omega),Bool.and_true,Bool.and_true] at here
    exact here
  · intro agree i inside
    rw [bit_byteMask n i inside]
    by_cases covered : 8 ≤ i + n
    · have here := agree (7 - i) (by omega)
      rw [show 7 - (7 - i) = i by omega] at here
      rw [here]
    · simp [covered]

def mask : Nat → Nat → List UInt8
  | _, 0 => []
  | n, l + 1 => byteMask n :: mask (n - 8) l

@[simp] theorem length_mask (n l : Nat) : (mask n l).length = l := by
  induction l generalizing n with
  | zero => rfl
  | succ l ih => simp [mask,ih]

theorem mask_add (n k l : Nat) : mask n (k + l) = mask n k ++ mask (n - 8 * k) l := by
  induction k generalizing n with
  | zero => simp [mask]
  | succ k ih => rw [Nat.succ_add,mask,mask,ih,List.cons_append,show n - 8 - 8 * k = n - 8 * (k + 1) by omega]

/-- A mask with enough ones changes nothing. -/
theorem and_mask_full (bytes : List UInt8) (enough : 8 * bytes.length ≤ n) :
    List.zipWith (· &&& ·) bytes (mask n bytes.length) = bytes := by
  induction bytes generalizing n with
  | nil => rfl
  | cons b rest ih =>
    simp only [List.length_cons] at enough
    have here : b &&& byteMask n = b := by
      rw [byteMask,if_pos (by omega),eq_iff_bit]
      intro i inside
      have all : ∀ i < 8, bit 0xff i = true := by decide
      have conj : bit (b &&& 0xff) i = (bit b i && bit 0xff i) := by simp [bit]
      rw [conj,all i inside,Bool.and_true]
    simp only [List.length_cons,mask,List.zipWith_cons_cons,here,ih (show 8 * rest.length ≤ n - 8 by omega)]

theorem bits_inj {xs ys : List UInt8} (same : bits xs = bits ys) : xs = ys := by
  induction xs generalizing ys with
  | nil =>
    cases ys with
    | nil => rfl
    | cons y ys => simpa using congrArg List.length same
  | cons x xs ih =>
    cases ys with
    | nil => simpa using congrArg List.length same
    | cons y ys =>
      have parts : byteBits x ++ bits xs = byteBits y ++ bits ys := same
      obtain ⟨here,rest⟩ := List.append_inj parts (by simp)
      have equal : x = y := by
        rw [eq_iff_bit]
        intro i inside
        have := (List.map_inj_left.mp here) (7 - i) (List.mem_range.mpr (by omega))
        rwa [show 7 - (7 - i) = i by omega] at this
      rw [equal,ih rest]

/-- Agreement beyond a leading part is agreement in the part and in what follows. -/
theorem take_bits_append_iff {xs ys : List UInt8} (same : xs.length = ys.length) (xs' ys' : List UInt8) (n : Nat) :
    (bits (xs ++ xs')).take (8 * xs.length + n) = (bits (ys ++ ys')).take (8 * xs.length + n) ↔
      xs = ys ∧ (bits xs').take n = (bits ys').take n := by
  have left : (bits (xs ++ xs')).take (8 * xs.length + n) = bits xs ++ (bits xs').take n := by
    rw [bits_append,← length_bits,List.take_length_add_append]
  have right : (bits (ys ++ ys')).take (8 * xs.length + n) = bits ys ++ (bits ys').take n := by
    rw [bits_append,same,← length_bits,List.take_length_add_append]
  rw [left,right]
  constructor
  · intro eq
    obtain ⟨here,rest⟩ := List.append_inj eq (by simp [same])
    exact ⟨bits_inj here,rest⟩
  · rintro ⟨rfl,rest⟩
    rw [rest]

/-- What is left of an address under a mask agrees with another address under the mask exactly
if the addresses agree in their leading bits. -/
theorem all_masked_iff (xs ys : List UInt8) (same : ys.length = xs.length) (n : Nat) :
    ((List.zipWith (· &&& ·) xs (mask n xs.length)).zip ((mask n xs.length).zip ys)).all
      (fun (x,m,y) => x &&& m == y &&& m) = true ↔ (bits ys).take n = (bits xs).take n := by
  induction xs generalizing ys n with
  | nil =>
    obtain rfl := List.eq_nil_of_length_eq_zero same
    simp [mask]
  | cons x xs ih =>
    cases ys with
    | nil => cases same
    | cons y ys =>
      have twice : x &&& byteMask n &&& byteMask n = x &&& byteMask n := by
        rw [UInt8.and_assoc,UInt8.and_self]
      have later := ih ys (by simpa using same) (n - 8)
      simp only [List.length_cons,mask,List.zipWith_cons_cons,List.zip_cons_cons,List.all_cons,Bool.and_eq_true,
        beq_iff_eq,later,twice,masked_iff,bits,List.flatMap_cons,List.take_append,length_byteBits]
      constructor
      · rintro ⟨here,rest⟩
        rw [here]
        exact congrArg _ rest
      · intro eq
        obtain ⟨here,rest⟩ := List.append_inj eq (by simp)
        exact ⟨here.symm,rest⟩

end LeadingBits
