import ActorLinks.Proofs.Composition.Choices
import Mathlib.Combinatorics.Colex
import Mathlib.Data.Nat.Bitwise

/-! # Masks and positions

A mask chooses the items at the positions of its bits, so the masks up to a power of two run through
the non-empty sets of positions, each of them once. The last one chooses everything. Of fewer items
than a machine word has bits, the choices are counted out in one word without overflow.
-/
namespace ActorLinks
variable {α : Type}

/-- The items at a set of positions, in the order of the list. -/
def itemsAt (items : List α) (positions : Finset Nat) : List α :=
  (items.zipIdx.filter fun e => e.2 ∈ positions).map Prod.fst

/-- The positions of the bits of a mask. -/
def maskPositions (mask : Nat) : Finset Nat := mask.bitIndices.toFinset

/-- The positions that the masks from one up to below `2 ^ n` stand for. -/
def positionSets (n : Nat) : List (Finset Nat) :=
  (List.range (2 ^ n - 1)).map fun i => maskPositions (i + 1)

section Positions
variable {mask n : Nat}

@[simp] theorem mem_maskPositions {i : Nat} : i ∈ maskPositions mask ↔ mask.testBit i = true := by
  rw [maskPositions, List.mem_toFinset, Nat.mem_bitIndices]

theorem maskPositions_injective : Function.Injective maskPositions :=
  Finset.equivBitIndices.injective

theorem exists_maskPositions (positions : Finset Nat) :
    ∃ mask, maskPositions mask = positions :=
  Finset.equivBitIndices.surjective positions

theorem maskPositions_nonempty : (maskPositions mask).Nonempty ↔ mask ≠ 0 := by
  have hzero : maskPositions 0 = ∅ := by simp [maskPositions]
  rw [Finset.nonempty_iff_ne_empty, ← hzero, ne_eq, maskPositions_injective.eq_iff]

theorem maskPositions_subset_range : maskPositions mask ⊆ Finset.range n ↔ mask < 2 ^ n := by
  constructor
  · intro hsub
    refine Nat.lt_pow_two_of_testBit mask fun i hi => ?_
    rw [Bool.eq_false_iff]
    intro hbit
    exact absurd (Finset.mem_range.mp (hsub (mem_maskPositions.mpr hbit))) (Nat.not_lt.mpr hi)
  · intro hlt i hi
    rw [Finset.mem_range]
    by_contra hle
    have hfalse : mask.testBit i = false := Nat.testBit_lt_two_pow
      (Nat.lt_of_lt_of_le hlt (Nat.pow_le_pow_right (by decide) (Nat.not_lt.mp hle)))
    rw [mem_maskPositions, hfalse] at hi
    cases hi

theorem nodup_positionSets : (positionSets n).Nodup :=
  List.nodup_range.map fun _ _ heq => Nat.succ_injective (maskPositions_injective heq)

theorem mem_positionSets {positions : Finset Nat} :
    positions ∈ positionSets n ↔ positions.Nonempty ∧ positions ⊆ Finset.range n := by
  obtain ⟨mask, rfl⟩ := exists_maskPositions positions
  rw [maskPositions_nonempty, maskPositions_subset_range, positionSets, List.mem_map]
  constructor
  · rintro ⟨i, hi, heq⟩
    obtain rfl := maskPositions_injective heq
    have hlt := List.mem_range.mp hi
    omega
  · rintro ⟨hne, hlt⟩
    exact ⟨mask - 1, List.mem_range.mpr (by omega), by congr 1; omega⟩

end Positions

section Choices
variable {mask : Nat} {items : List α}

theorem selectBits_eq_filter (mask : Nat) (items : List α) :
    selectBits mask items = (items.zipIdx.filter fun e => mask.testBit e.2).map Prod.fst := by
  induction items generalizing mask with
  | nil => rfl
  | cons x xs ih =>
    have hrest : ((xs.zipIdx 1).filter fun e => mask.testBit e.2).map Prod.fst
        = selectBits (mask / 2) xs := by
      rw [ih, List.zipIdx_succ, List.filter_map, List.map_map]
      simp only [Function.comp_def, Nat.testBit_succ]
    rw [selectBits, List.zipIdx_cons, List.filter_cons]
    split
    · next hodd => rw [if_pos (by simpa using hodd), List.map_cons, hrest]
    · next heven => rw [if_neg (by simpa using heven), hrest]

theorem selectBits_eq_itemsAt (mask : Nat) (items : List α) :
    selectBits mask items = itemsAt items (maskPositions mask) := by
  simp [selectBits_eq_filter, itemsAt]

/-- The mask before a power of two sets every position. -/
theorem selectBits_last (items : List α) : selectBits (2 ^ items.length - 1) items = items := by
  have hall : ∀ e ∈ items.zipIdx, (2 ^ items.length - 1).testBit e.2 = true := by
    rintro ⟨x, i⟩ he
    rw [Nat.testBit_two_pow_sub_one, decide_eq_true_eq]
    exact (List.getElem?_eq_some_iff.mp (List.mem_zipIdx_iff_getElem?.mp he)).1
  rw [selectBits_eq_filter, List.filter_eq_self.mpr hall, List.zipIdx_map_fst]

theorem choices_eq_map (items : List α) (dropLast : Bool) : choices items dropLast
    = (List.range (2 ^ items.length - if dropLast then 2 else 1)).map
        fun i => selectBits (i + 1) items := by
  cases items with
  | nil => cases dropLast <;> rfl
  | cons x xs => rw [choices, List.isEmpty_cons, if_neg Bool.false_ne_true, Nat.one_shiftLeft]

theorem choices_false_eq_positions (items : List α) :
    choices items false = (positionSets items.length).map (itemsAt items) := by
  rw [choices_eq_map, positionSets, List.map_map]
  exact List.map_congr_left fun i _ => selectBits_eq_itemsAt (i + 1) items

theorem length_choices_false (items : List α) :
    (choices items false).length = 2 ^ items.length - 1 := by
  rw [choices_eq_map, List.length_map, List.length_range]
  rfl

theorem choices_true_eq_dropLast (items : List α) :
    choices items true = (choices items false).dropLast := by
  have hrange (m : Nat) : (List.range m).dropLast = List.range (m - 1) := by
    rw [List.dropLast_eq_take, List.length_range, List.take_range, Nat.min_eq_left (Nat.sub_le m 1)]
  rw [choices_eq_map, choices_eq_map, ← List.map_dropLast, hrange]
  rfl

theorem getLast?_choices (hne : items ≠ []) : (choices items false).getLast? = some items := by
  obtain ⟨k, hk⟩ : ∃ k, 2 ^ items.length - 1 = k + 1 := by
    have hlarge := Nat.one_lt_two_pow (List.length_pos_iff.mpr hne).ne'
    exact ⟨2 ^ items.length - 2, by omega⟩
  rw [choices_eq_map, if_neg Bool.false_ne_true, hk, List.range_succ, List.map_append,
    List.map_singleton, List.getLast?_concat, ← hk, selectBits_last]

end Choices

section Words

/-- The items at the positions that a machine word sets. -/
def selectWord (mask : UInt64) (items : List α) : List α :=
  (items.zipIdx.filter fun e => mask &&& ((1 : UInt64) <<< e.2.toUInt64) != 0).map Prod.fst

/-- The mask that choices end with, as a machine word. -/
def lastMask (length : Nat) (dropLast : Bool) : UInt64 :=
  ((1 : UInt64) <<< length.toUInt64) - if dropLast then 2 else 1

variable {n : Nat}

theorem toNat_bit (h : n < 64) : ((1 : UInt64) <<< n.toUInt64).toNat = 2 ^ n := by
  have hpow : 2 ^ n < 2 ^ 64 := Nat.pow_lt_pow_right (by decide) h
  have hshift : n.toUInt64.toNat % 64 = n := by
    rw [Nat.toUInt64_eq, UInt64.toNat_ofNat']
    omega
  rw [UInt64.toNat_shiftLeft, hshift, UInt64.toNat_one, Nat.one_shiftLeft, Nat.mod_eq_of_lt hpow]

theorem toNat_lastMask (h : n < 64) (hpos : 0 < n) (dropLast : Bool) :
    (lastMask n dropLast).toNat = 2 ^ n - if dropLast then 2 else 1 := by
  have hpow : 2 ^ n < 2 ^ 64 := Nat.pow_lt_pow_right (by decide) h
  have htwo : 2 ≤ 2 ^ n := Nat.one_lt_two_pow hpos.ne'
  rw [lastMask, UInt64.toNat_sub, toNat_bit h]
  cases dropLast <;> simp <;> omega

/-- Below the width of a word the bits of a number are tested in the word. -/
theorem selectWord_eq {mask : Nat} {items : List α} (h : items.length < 64)
    (hmask : mask < 2 ^ 64) : selectWord mask.toUInt64 items = selectBits mask items := by
  have hword : mask.toUInt64.toNat = mask := by
    rw [Nat.toUInt64_eq, UInt64.toNat_ofNat', Nat.mod_eq_of_lt hmask]
  rw [selectWord, selectBits_eq_filter]
  congr 1
  refine List.filter_congr fun e he => ?_
  have hlt : e.2 < 64 := Nat.lt_trans
    (List.getElem?_eq_some_iff.mp (List.mem_zipIdx_iff_getElem?.mp he)).1 h
  rw [Bool.eq_iff_iff, bne_iff_ne, ne_eq, ← UInt64.toNat_inj, UInt64.toNat_and, hword,
    toNat_bit hlt, Nat.and_two_pow]
  cases mask.testBit e.2 <;> simp

/-- The choices from fewer items than a word has bits, counted out in words. -/
theorem choices_eq_words {items : List α} (h : items.length < 64) (hne : items ≠ [])
    (dropLast : Bool) : choices items dropLast
      = (List.range' 1 (lastMask items.length dropLast).toNat).map
          fun mask => selectWord mask.toUInt64 items := by
  have hpow : 2 ^ items.length < 2 ^ 64 := Nat.pow_lt_pow_right (by decide) h
  rw [choices_eq_map, toNat_lastMask h (List.length_pos_iff.mpr hne), List.range'_eq_map_range,
    List.map_map]
  refine List.map_congr_left fun i hi => ?_
  have hlt := List.mem_range.mp hi
  rw [Function.comp_apply, selectWord_eq h (by omega), Nat.add_comm]

end Words

/-- The choices from a list are what it has at each non-empty set of positions, once for each set
and the whole list last; on request the last one is left out. With fewer items than a machine word
has bits no mask overflows. -/
theorem choices_enumerate (items : List α) (h : items.length < 64) :
    (∃ sets : List (Finset Nat), sets.Nodup ∧
      (∀ s, s ∈ sets ↔ s.Nonempty ∧ s ⊆ Finset.range items.length) ∧
      choices items false = sets.map (itemsAt items)) ∧
    (choices items false).length = 2 ^ items.length - 1 ∧
    (choices items false).getLast? = (if items.isEmpty then none else some items) ∧
    choices items true = (choices items false).dropLast ∧
    (items ≠ [] → ∀ dropLast, choices items dropLast
      = (List.range' 1 (lastMask items.length dropLast).toNat).map
          fun mask => selectWord mask.toUInt64 items) := by
  refine ⟨⟨positionSets items.length, nodup_positionSets, fun _ => mem_positionSets,
    choices_false_eq_positions items⟩, length_choices_false items, ?_,
    choices_true_eq_dropLast items, fun hne => choices_eq_words h hne⟩
  cases items with
  | nil => rfl
  | cons x xs => exact getLast?_choices (List.cons_ne_nil x xs)

/-- The longest lists of which all choices can be counted in a word. -/
theorem choices_enumerate_widest :
    (choices (List.range 63) false).getLast? = some (List.range 63) ∧
    (choices (List.range 63) true).length = 2 ^ 63 - 2 := by
  obtain ⟨_, hlength, hlast, hdrop, _⟩ := choices_enumerate (List.range 63) (by decide)
  refine ⟨hlast, ?_⟩
  rw [hdrop, List.length_dropLast, hlength]
  rfl

/-- Of one item nothing is left when the whole list is left out. -/
example : choices ["Indexable"] true = [] := rfl

end ActorLinks
